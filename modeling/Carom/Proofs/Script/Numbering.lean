import Carom.Proofs.Script.Layout

/-!
# The numbers of lines

Lines that are not blank keep the numbers that they have among all lines of a text. So the
numbers grow, and they tell which part of the text some lines in a row come from: the part
from the first of them to the last one has these lines and no others
(`significantFrom_excerpt`), and it ends with a line that is not blank.
-/

namespace Carom.Script

open Text

/-- Lines further down are numbered from where those before them end. -/
theorem significantFrom_append (n : Nat) (a b : List (List Char)) :
    significantFrom n (a ++ b) = significantFrom n a ++ significantFrom (n + a.length) b := by
  induction a generalizing n with
  | nil => rfl
  | cons l a ih =>
    have next : n + 1 + a.length = n + (l :: a).length := by
      rw [List.length_cons]
      omega
    rw [List.cons_append, significantFrom, significantFrom, ih, next]
    split <;> rfl

/-- There is no line that is not blank iff all are blank. -/
theorem significantFrom_eq_nil_iff {n : Nat} {ls : List (List Char)} :
    significantFrom n ls = [] ↔ ∀ l ∈ ls, AllBlank l := by
  induction ls generalizing n with
  | nil => simp [significantFrom]
  | cons l ls ih =>
    rw [significantFrom, List.forall_mem_cons, ← trim_eq_nil_iff, ← ih (n := n + 1)]
    split <;> simp_all

theorem significantFrom_of_empty {pad : List (List Char)} (h : ∀ l ∈ pad, l = []) (n : Nat) :
    significantFrom n pad = [] :=
  significantFrom_eq_nil_iff.2 fun l mem => h l mem ▸ allBlank_nil

/-- A line that is not blank stands where its number says, with those that were found before it
    in front of it. -/
theorem exists_of_significantFrom_eq_append {n : Nat} {ls : List (List Char)}
    {before after : List Line} {l : Line} (eq : significantFrom n ls = before ++ l :: after) :
    ∃ front raw back, ls = front ++ raw :: back ∧ l.number = n + front.length ∧
      trim isBlank raw = l.text ∧ l.text ≠ [] ∧ significantFrom n front = before := by
  -- A blank line moves the number on and nothing else; the others are taken off one by one, until
  -- the one that is looked for comes up.
  induction ls generalizing n before with
  | nil => simp [significantFrom] at eq
  | cons line ls ih =>
    rw [significantFrom] at eq
    split at eq
    · rename_i blank
      obtain ⟨front, raw, back, rfl, number, text, ne, found⟩ := ih eq
      refine ⟨line :: front, raw, back, rfl, ?_, text, ne, ?_⟩
      · rw [number, List.length_cons]
        omega
      · rw [significantFrom, if_pos blank, found]
    · rename_i some
      cases before with
      | nil =>
        obtain ⟨rfl, -⟩ := List.cons.inj eq
        exact ⟨[], line, ls, rfl, rfl, rfl, by simpa using some, rfl⟩
      | cons b before =>
        obtain ⟨rfl, later⟩ := List.cons.inj eq
        obtain ⟨front, raw, back, rfl, number, text, ne, found⟩ := ih later
        refine ⟨line :: front, raw, back, rfl, ?_, text, ne, ?_⟩
        · rw [number, List.length_cons]
          omega
        · rw [significantFrom, if_neg some, found]

/-- A text has a line of that number, which is that line without the blanks at its ends. -/
def HasLine (ls : List (List Char)) (l : Line) : Prop :=
  1 ≤ l.number ∧ ∃ raw, ls[l.number - 1]? = some raw ∧ trim isBlank raw = l.text

/-- The lines that are found are those of the text that are not blank. -/
theorem mem_significantFrom_iff {ls : List (List Char)} {l : Line} :
    l ∈ significantFrom 1 ls ↔ HasLine ls l ∧ l.text ≠ [] := by
  constructor
  · intro mem
    obtain ⟨before, after, eq⟩ := List.append_of_mem mem
    obtain ⟨front, raw, back, rfl, number, text, ne, -⟩ := exists_of_significantFrom_eq_append eq
    refine ⟨⟨by omega, raw, ?_, text⟩, ne⟩
    rw [number, Nat.add_sub_cancel_left, List.getElem?_append_right (Nat.le_refl _),
      Nat.sub_self, List.getElem?_cons_zero]
  · rintro ⟨⟨pos, raw, found, text⟩, ne⟩
    obtain ⟨fits, rfl⟩ := List.getElem?_eq_some_iff.1 found
    have number : 1 + (ls.take (l.number - 1)).length = l.number := by
      rw [List.length_take]
      omega
    rw [← List.take_append_drop (l.number - 1) ls, significantFrom_append, number,
      List.drop_eq_getElem_cons fits, significantFrom, text, if_neg (by simpa using ne)]
    exact List.mem_append_right _ List.mem_cons_self

/-- The lines of a text up to a line, without it and with it. -/
theorem significantFrom_take {ls : List (List Char)} {before after : List Line} {l : Line}
    (eq : significantFrom 1 ls = before ++ l :: after) :
    significantFrom 1 (ls.take (l.number - 1)) = before ∧
      significantFrom 1 (ls.take l.number) = before ++ [l] := by
  obtain ⟨front, raw, back, rfl, number, text, ne, found⟩ := exists_of_significantFrom_eq_append eq
  constructor
  · rw [number, Nat.add_sub_cancel_left, List.take_left, found]
  · have upTo : (front ++ raw :: back).take l.number = front ++ [raw] := by
      rw [number, Nat.add_comm, List.take_length_add_append, List.take_succ_cons, List.take_zero]
    have last : significantFrom l.number [raw] = [l] := by
      rw [significantFrom, significantFrom, text, if_neg (by simpa using ne)]
    rw [upTo, significantFrom_append, found, ← number, last]

/-- The number of a line is one of the numbers that there are. -/
theorem number_of_mem {n : Nat} {ls : List (List Char)} {l : Line}
    (h : l ∈ significantFrom n ls) : n ≤ l.number ∧ l.number < n + ls.length := by
  induction ls generalizing n with
  | nil => cases h
  | cons line ls ih =>
    rw [List.length_cons]
    rw [significantFrom] at h
    have later (h : l ∈ significantFrom (n + 1) ls) :
        n ≤ l.number ∧ l.number < n + (ls.length + 1) := by
      have := ih h
      omega
    split at h
    · exact later h
    · rcases List.mem_cons.1 h with rfl | h
      · exact ⟨Nat.le_refl n, by simp only; omega⟩
      · exact later h

/-- Lines are numbered from top to bottom. -/
theorem pairwise_number (n : Nat) (ls : List (List Char)) :
    (significantFrom n ls).Pairwise fun l m => l.number < m.number := by
  induction ls generalizing n with
  | nil => exact .nil
  | cons line ls ih =>
    rw [significantFrom]
    split
    · exact ih (n + 1)
    · exact .cons (fun m hm => (number_of_mem hm).1) (ih (n + 1))

/-- In the order of the text, the numbers of lines lie between the first and the last of them. -/
theorem number_between {ls : List Line} (sorted : ls.Pairwise fun l m => l.number < m.number)
    {first last l : Line} (hfirst : ls.head? = some first) (hlast : ls.getLast? = some last)
    (h : l ∈ ls) : first.number ≤ l.number ∧ l.number ≤ last.number := by
  constructor
  · obtain ⟨rest, rfl⟩ := List.head?_eq_some_iff.1 hfirst
    rcases List.mem_cons.1 h with rfl | mem
    · exact Nat.le_refl _
    · exact Nat.le_of_lt ((List.pairwise_cons.1 sorted).1 l mem)
  · obtain ⟨front, rfl⟩ := List.getLast?_eq_some_iff.1 hlast
    rcases List.mem_append.1 h with mem | mem
    · have lower := (List.pairwise_append.1 sorted).2.2 l mem last (List.mem_singleton_self _)
      exact Nat.le_of_lt lower
    · exact Nat.le_of_eq (congrArg Line.number (List.mem_singleton.1 mem))

/-- A line with a number that is greater by `k`. -/
def Line.later (k : Nat) (l : Line) : Line := { l with number := l.number + k }

/-- A line with a number that is less by `k`. -/
def Line.earlier (k : Nat) (l : Line) : Line := { l with number := l.number - k }

theorem Line.earlier_later (k : Nat) (l : Line) : (l.later k).earlier k = l := by
  simp [Line.earlier, Line.later]

/-- Lines that begin further down are the same lines there. -/
theorem significantFrom_add (n k : Nat) (ls : List (List Char)) :
    significantFrom (n + k) ls = (significantFrom n ls).map (Line.later k) := by
  induction ls generalizing n with
  | nil => rfl
  | cons line ls ih =>
    rw [significantFrom, significantFrom, Nat.add_right_comm, ih]
    split <;> rfl

/-- The same lines by the numbers that they have if the count begins earlier. -/
theorem map_earlier_significantFrom (n k : Nat) (ls : List (List Char)) :
    (significantFrom (n + k) ls).map (Line.earlier k) = significantFrom n ls := by
  have undone : Line.earlier k ∘ Line.later k = id := funext (Line.earlier_later k)
  rw [significantFrom_add, List.map_map, undone, List.map_id]

/-- What a test finds in the middle, and nowhere else. -/
theorem filter_append_middle {α : Type} {p : α → Bool} {a b c : List α}
    (ha : ∀ x ∈ a, p x = false) (hb : ∀ x ∈ b, p x = true) (hc : ∀ x ∈ c, p x = false) :
    (a ++ b ++ c).filter p = b := by
  have none {l : List α} (h : ∀ x ∈ l, p x = false) : l.filter p = [] :=
    List.filter_eq_nil_iff.2 fun x hx => by simp [h x hx]
  rw [List.filter_append, List.filter_append, none ha, none hc, List.filter_eq_self.2 hb,
    List.nil_append, List.append_nil]

/-- The part of a text from the line of one number to the line of another one. -/
def excerpt (first last : Nat) (ls : List (List Char)) : List (List Char) :=
  (ls.take last).drop (first - 1)

/-- An excerpt is as long as its numbers tell. -/
theorem length_excerpt {first last : Nat} {ls : List (List Char)} (pos : 1 ≤ first)
    (le : first ≤ last) (fits : last ≤ ls.length) :
    (excerpt first last ls).length = last + 1 - first := by
  rw [excerpt, List.length_drop, List.length_take]
  omega

theorem mem_of_mem_excerpt {first last : Nat} {ls : List (List Char)} {l : List Char}
    (h : l ∈ excerpt first last ls) : l ∈ ls :=
  List.mem_of_mem_take (List.mem_of_mem_drop h)

/-- A text is what comes before an excerpt, the excerpt, and what comes behind it. -/
theorem significantFrom_eq_append {first last : Nat} {ls : List (List Char)} (pos : 1 ≤ first)
    (le : first ≤ last) (fits : last ≤ ls.length) :
    significantFrom 1 ls = significantFrom 1 (ls.take (first - 1)) ++
      significantFrom first (excerpt first last ls) ++
        significantFrom (last + 1) (ls.drop last) := by
  have length_begins : 1 + (ls.take (first - 1)).length = first := by
    rw [List.length_take]
    omega
  have length_both : 1 + (ls.take last).length = last + 1 := by
    rw [List.length_take]
    omega
  -- What ends with the excerpt is what comes before it, and the excerpt.
  have both : ls.take last = ls.take (first - 1) ++ excerpt first last ls := by
    have begins : ls.take (first - 1) = (ls.take last).take (first - 1) := by
      rw [List.take_take, Nat.min_eq_left (by omega)]
    rw [begins, excerpt, List.take_append_drop]
  calc significantFrom 1 ls
      = significantFrom 1 (ls.take last) ++ significantFrom (last + 1) (ls.drop last) := by
        rw [← length_both, ← significantFrom_append, List.take_append_drop]
    _ = significantFrom 1 (ls.take (first - 1) ++ excerpt first last ls) ++
          significantFrom (last + 1) (ls.drop last) := by
        rw [← both]
    _ = _ := by
        rw [significantFrom_append, length_begins]

section

variable {ls : List (List Char)} {before middle after : List Line} {first last : Line}

/-- The numbers of some lines in a row are in order, and numbers of the text. -/
theorem number_bounds (eq : significantFrom 1 ls = before ++ middle ++ after)
    (hfirst : middle.head? = some first) (hlast : middle.getLast? = some last) :
    1 ≤ first.number ∧ first.number ≤ last.number ∧ last.number ≤ ls.length := by
  have mem {l : Line} (h : l ∈ middle) : l ∈ significantFrom 1 ls := by
    rw [eq]
    simp [h]
  have low := number_of_mem (mem (List.mem_of_mem_head? hfirst))
  have high := number_of_mem (mem (List.mem_of_getLast? hlast))
  have sorted : middle.Pairwise fun l m => l.number < m.number := by
    have := pairwise_number 1 ls
    rw [eq] at this
    exact (List.pairwise_append.1 (List.pairwise_append.1 this).1).2.1
  have le := (number_between sorted hfirst hlast (List.mem_of_mem_head? hfirst)).2
  exact ⟨low.1, le, by omega⟩

/-- Lines in a row are those with the numbers from that of the first of them to that of the
    last. -/
theorem filter_number_between (eq : significantFrom 1 ls = before ++ middle ++ after)
    (hfirst : middle.head? = some first) (hlast : middle.getLast? = some last) :
    ((significantFrom 1 ls).filter fun l => first.number ≤ l.number && l.number ≤ last.number) =
      middle := by
  have sorted := pairwise_number 1 ls
  rw [eq] at sorted ⊢
  obtain ⟨sortedFront, -, behind⟩ := List.pairwise_append.1 sorted
  obtain ⟨-, sortedMiddle, front⟩ := List.pairwise_append.1 sortedFront
  refine filter_append_middle (fun l mem => ?_) (fun l mem => ?_) fun l mem => ?_
  · have := front l mem first (List.mem_of_mem_head? hfirst)
    simp
    omega
  · have := number_between sortedMiddle hfirst hlast mem
    simp
    omega
  · have := behind last (List.mem_append_right _ (List.mem_of_getLast? hlast)) l mem
    simp
    omega

/-- Lines in a row are those of the part of the text from the first of them to the last. -/
theorem significantFrom_excerpt (eq : significantFrom 1 ls = before ++ middle ++ after)
    (hfirst : middle.head? = some first) (hlast : middle.getLast? = some last) :
    significantFrom first.number (excerpt first.number last.number ls) = middle := by
  obtain ⟨pos, le, fits⟩ := number_bounds eq hfirst hlast
  let inside (l : Line) : Bool := first.number ≤ l.number && l.number ≤ last.number
  -- Both are the lines whose numbers lie between the two, once by the cut, once by the order.
  have byCut : (significantFrom 1 ls).filter inside =
      significantFrom first.number (excerpt first.number last.number ls) := by
    rw [significantFrom_eq_append pos le fits]
    refine filter_append_middle (fun l mem => ?_) (fun l mem => ?_) fun l mem => ?_
    · have := (number_of_mem mem).2
      rw [List.length_take] at this
      simp [inside]
      omega
    · have := number_of_mem mem
      rw [length_excerpt pos le fits] at this
      simp [inside]
      omega
    · have := (number_of_mem mem).1
      simp [inside]
      omega
  exact byCut.symm.trans (filter_number_between eq hfirst hlast)

/-- The last line of the part of a text that some lines cover is one of them, so it is not
    blank. -/
theorem ne_nil_of_getLast?_excerpt (eq : significantFrom 1 ls = before ++ middle ++ after)
    (hfirst : middle.head? = some first) (hlast : middle.getLast? = some last) {l : List Char}
    (h : (excerpt first.number last.number ls).getLast? = some l) : l ≠ [] := by
  rintro rfl
  obtain ⟨pos, le, fits⟩ := number_bounds eq hfirst hlast
  have lines := significantFrom_excerpt eq hfirst hlast
  have length := length_excerpt pos le fits
  obtain ⟨front, cut⟩ := List.getLast?_eq_some_iff.1 h
  rw [cut, List.length_append, List.length_singleton] at length
  -- Without its last line the part is too short to have a line of that number.
  have blank : significantFrom (first.number + front.length) [[]] = [] := rfl
  rw [cut, significantFrom_append, blank, List.append_nil] at lines
  have := (number_of_mem (lines ▸ List.mem_of_getLast? hlast)).2
  omega

end

end Carom.Script
