import Carom.Document.Scalar

/-!
# What is read without a fault

Data is read without a fault iff each of its parts is, so a result without a fault comes apart
into the results for the members of an object and for the items of a list. In the other
direction, a document that a list was written to is read as that list iff each item is read as
it was (`each_map_eq_valid_iff`).
-/

namespace Carom

namespace Checked

variable {α β : Type}

@[simp] theorem within_eq_valid_iff {key : Key} {r : Checked α} {a : α} :
    r.within key = valid a ↔ r = valid a := by
  cases r <;> simp [within]

@[simp] theorem map_eq_valid_iff {f : α → β} {r : Checked α} {b : β} :
    r.map f = valid b ↔ ∃ a, r = valid a ∧ f a = b := by
  cases r <;> simp [map]

@[simp] theorem both_eq_valid_iff {r : Checked α} {q : Checked β} {p : α × β} :
    r.both q = valid p ↔ r = valid p.1 ∧ q = valid p.2 := by
  cases r <;> cases q <;> simp [both, Prod.ext_iff]

@[simp] theorem andThen_eq_valid_iff {r : Checked α} {f : α → Checked β} {b : β} :
    r.andThen f = valid b ↔ ∃ a, r = valid a ∧ f a = valid b := by
  cases r <;> simp [andThen]

end Checked

namespace Document

open Checked

variable {α : Type} {d v : Document} {key : String} {a : α}

/-- A member that is there is read. -/
theorem field_of_get? (found : d.get? key = some v)
    (read : (v : Document) → sizeOf v < sizeOf d → Checked α) :
    d.field key read = within (.field key) (read v (sizeOf_get?_lt found)) := by
  rw [field]
  split
  · rename_i w found'
    obtain rfl := Option.some.inj (found.symm.trans found')
    rfl
  · rename_i none
    cases none.symm.trans found

/-- So is one that may be missing. -/
theorem fieldOr_of_get? (found : d.get? key = some v) (standIn : α)
    (read : (v : Document) → sizeOf v < sizeOf d → Checked α) :
    d.fieldOr key standIn read = within (.field key) (read v (sizeOf_get?_lt found)) := by
  rw [fieldOr]
  split
  · rename_i w found'
    obtain rfl := Option.some.inj (found.symm.trans found')
    rfl
  · rename_i none
    cases none.symm.trans found

theorem field_eq_valid (found : d.get? key = some v)
    {read : (v : Document) → sizeOf v < sizeOf d → Checked α}
    (h : read v (sizeOf_get?_lt found) = valid a) : d.field key read = valid a := by
  rw [field_of_get? found, h]
  rfl

theorem fieldOr_eq_valid (found : d.get? key = some v) {standIn : α}
    {read : (v : Document) → sizeOf v < sizeOf d → Checked α}
    (h : read v (sizeOf_get?_lt found) = valid a) : d.fieldOr key standIn read = valid a := by
  rw [fieldOr_of_get? found, h]
  rfl

/-- A member that has to be there comes from the document. -/
theorem exists_of_field {read : (v : Document) → sizeOf v < sizeOf d → Checked α}
    (h : d.field key read = valid a) :
    ∃ v, ∃ found : d.get? key = some v, read v (sizeOf_get?_lt found) = valid a := by
  rw [field] at h
  split at h
  · rename_i v found
    exact ⟨v, found, within_eq_valid_iff.1 h⟩
  · cases h

/-- A member that may be missing comes from the document, or is the value that stands in. -/
theorem exists_of_fieldOr {standIn : α} {read : (v : Document) → sizeOf v < sizeOf d → Checked α}
    (h : d.fieldOr key standIn read = valid a) : a = standIn ∨
      ∃ v, ∃ found : d.get? key = some v, read v (sizeOf_get?_lt found) = valid a := by
  rw [fieldOr] at h
  split at h
  · rename_i v found
    exact .inr ⟨v, found, within_eq_valid_iff.1 h⟩
  · cases h
    exact .inl rfl

/-- Items are read one after the other. -/
theorem each_cons_eq_valid_iff {n : Nat} {vs : List Document} {read : Document → Checked α}
    {as : List α} : (each n (v :: vs) fun v _ => read v) = valid as ↔
      ∃ a rest, as = a :: rest ∧ read v = valid a ∧
        (each (n + 1) vs fun v _ => read v) = valid rest := by
  simp only [each, map_eq_valid_iff, both_eq_valid_iff, within_eq_valid_iff]
  constructor
  · rintro ⟨p, ⟨first, others⟩, rfl⟩
    exact ⟨p.1, p.2, rfl, first, others⟩
  · rintro ⟨a, rest, rfl, first, others⟩
    exact ⟨(a, rest), ⟨first, others⟩, rfl⟩

/-- The items that were written are read back iff each of them is. -/
theorem each_map_eq_valid_iff {write : α → Document} {read : Document → Checked α} {as : List α}
    (n : Nat) : (each n (as.map write) fun v _ => read v) = valid as ↔
      ∀ a ∈ as, read (write a) = valid a := by
  induction as generalizing n with
  | nil => exact iff_of_true rfl (List.forall_mem_nil _)
  | cons a as ih =>
    rw [List.forall_mem_cons, ← ih (n + 1)]
    refine Iff.trans each_cons_eq_valid_iff ?_
    constructor
    · rintro ⟨_, _, eq, own⟩
      cases eq
      exact own
    · exact fun own => ⟨a, as, rfl, own⟩

/-- Each item that is read comes from an item of the document. -/
theorem exists_mem_of_each {n : Nat} {vs : List Document} {read : Document → Checked α}
    {as : List α} (h : (each n vs fun v _ => read v) = valid as) {a : α} (mem : a ∈ as) :
    ∃ v ∈ vs, read v = valid a := by
  induction vs generalizing n as with
  | nil =>
    cases h
    cases mem
  | cons v vs ih =>
    obtain ⟨b, rest, rfl, first, others⟩ := each_cons_eq_valid_iff.1 h
    rcases List.mem_cons.1 mem with rfl | mem
    · exact ⟨v, List.mem_cons_self, first⟩
    · obtain ⟨w, found, own⟩ := ih others mem
      exact ⟨w, List.mem_cons_of_mem v found, own⟩

/-- A list is read from a list. -/
theorem items_eq_valid {flaw : Flaw} {read : Document → Checked α} {as : List α}
    (h : (d.items flaw fun v _ => read v) = valid as) :
    ∃ vs, d = list vs ∧ (each 0 vs fun v _ => read v) = valid as := by
  cases d with
  | list vs => exact ⟨vs, rfl, h⟩
  | _ => cases h

theorem nullable_of_ne_null (ne : d ≠ null) (read : Document → Checked α) :
    (d.nullable fun v _ => read v) = (read d).map some := by
  cases d with
  | null => exact absurd rfl ne
  | _ => rfl

end Document

end Carom
