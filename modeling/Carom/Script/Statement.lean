import Carom.Instruction
import Carom.Numeric
import Carom.Script.Line
import Carom.Text.Numeral

/-!
# Statements

One line of a script is one instruction:

* `if C hits T N times` lets the ball bounce from its `N`-th hit on, whatever the two
  words `C` and `T` are;
* `set speed X` sets the speed, `set speed relative X` changes it by `X`;
* `set direction W` sets the direction.

The words are separated by blanks. What a line is about is decided by its beginning
(`if` or `set`, and a space); from there on each line has exactly one reading or one
cause of error.
-/

namespace Carom.Script

open Text

/-- Setting the speed to a number. -/
def setSpeed (speed : Binary64) : Instruction := .setSpeed (.number speed)

/-- Changing the speed by a number. -/
def changeSpeed (change : Binary64) : Instruction :=
  .setSpeed (.binary .add (.ball .speed) (.number change))

/-- Setting the direction. -/
def setDirection (d : Direction) : Instruction := .setDirection (.literal (.direction d))

/-- Bouncing from a hit of the ball on. -/
def bounceFrom (hits : Binary64) : Instruction :=
  .ifThen (.binary .ge (.ball .hitCount) (.number hits)) [.bounce]

/-- The number that a word is. -/
def readNumber (token : List Char) : Except Cause Binary64 :=
  match Numeral.read? digit? token with
  | some n => .ok n.toNumber
  | none => .error (.badNumber token)

/-- The number of a count, from its digits. -/
def readCount (digits : List Nat) : Except ReadError Binary64 :=
  if maxCountDigits < digits.length then .error (.countTooLong digits.length)
  else match Binary64.ofInt? (ofDigits digits) with
    | some n => .ok n
    | none => .error .countTooLarge

/-- The instruction of a line that begins with `set`, from all its words. -/
def readSetting (tokens : List (List Char)) : Except Cause Instruction :=
  match tokens with
  | _ :: property :: value :: more =>
    if property == "speed".toList then
      if value == "relative".toList then
        match more with
        | [change] => (readNumber change).map changeSpeed
        | _ => .error .badSpeedChange
      else if more.isEmpty then (readNumber value).map setSpeed
      else .error .badSpeed
    else if property == "direction".toList then
      if more.isEmpty then
        match Direction.ofWord? (String.ofList value) with
        | some d => .ok (setDirection d)
        | none => .error (.unknownDirection value)
      else .error .badDirection
    else .error (.unknownProperty property)
  | _ => .error .incompleteSetting

/-- The count of a line that begins with `if`, from the words after that. -/
def readCondition (tokens : List (List Char)) : Except Cause (List Nat) :=
  match tokens with
  | [_, hits, _, count, times] =>
    if hits == "hits".toList && times == "times".toList then
      match countDigits? count with
      | some digits => .ok digits
      | none => .error (.badCount count)
    else .error .badCondition
  | _ => .error .badCondition

/-- An error of a line. -/
def Line.error {α : Type} (l : Line) (c : Cause) : Except ReadError α :=
  .error (.malformed (.at l c))

/-- The instruction of a line. -/
def Line.statement (l : Line) : Except ReadError Instruction :=
  if startsWith "if" l.text then
    match readCondition (words (after "if" l.text)) with
    | .ok digits => (readCount digits).map bounceFrom
    | .error c => l.error c
  else if startsWith "set" l.text then
    match readSetting (words l.text) with
    | .ok i => .ok i
    | .error c => l.error c
  else l.error .unknownStatement

end Carom.Script
