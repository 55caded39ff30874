import Mathlib.Tactic.ByContra
import Mathlib.Tactic.Tauto
import Std.Data.ExtTreeMap
import Std.Data.ExtTreeSet

/-!
# Relations held in tables

A relation is held as a table that gives each key the set of its partners.  Linking and
unlinking a pair change that pair alone, and keep the table free of empty entries.
-/

namespace ConstraintRouting.Verified.RelationTables

variable {α β : Type} {first : α → α → Ordering} {second : β → β → Ordering}

/-- The partners of each key. -/
abbrev Table (first : α → α → Ordering) (second : β → β → Ordering) :=
  Std.ExtTreeMap α (Std.ExtTreeSet β second) first

section

variable [Std.TransCmp first] [Std.TransCmp second]

/-- The table relates the key to the partner. -/
def Related (table : Table first second) (a : α) (b : β) : Prop :=
  ∃ set, table[a]? = some set ∧ b ∈ set

/-- No entry is empty. -/
def Trim (table : Table first second) : Prop :=
  ∀ (a : α) (set : Std.ExtTreeSet β second), table[a]? = some set → ∃ b, b ∈ set

/-- Adds a pair. -/
def link (table : Table first second) (a : α) (b : β) : Table first second :=
  table.alter a fun bound => some ((bound.getD ∅).insert b)

/-- Removes a pair, and the entry of its key when that becomes empty. -/
def unlink (table : Table first second) (a : α) (b : β) : Table first second :=
  table.alter a fun bound => bound.bind fun set =>
    if (set.erase b).isEmpty then none else some (set.erase b)

theorem not_related_empty {a : α} {b : β} : ¬ Related (∅ : Table first second) a b := by
  rintro ⟨set, hset, -⟩
  rw [Std.ExtTreeMap.getElem?_empty] at hset
  cases hset

theorem trim_empty : Trim (∅ : Table first second) := by
  intro a set hset
  rw [Std.ExtTreeMap.getElem?_empty] at hset
  cases hset

/-- The keys of a table without empty entries are those with a partner. -/
theorem Trim.mem_iff {table : Table first second} {a : α} (h : Trim table) :
    a ∈ table ↔ ∃ b, Related table a b := by
  rw [Std.ExtTreeMap.mem_iff_isSome_getElem?, Option.isSome_iff_exists]
  constructor
  · rintro ⟨set, hset⟩
    obtain ⟨b, hb⟩ := h a set hset
    exact ⟨b, set, hset, hb⟩
  · rintro ⟨b, set, hset, -⟩
    exact ⟨set, hset⟩

end

private theorem mem_insert_iff [Std.TransCmp second] [Std.LawfulEqCmp second]
    {set : Std.ExtTreeSet β second} {b b' : β} : b' ∈ set.insert b ↔ b = b' ∨ b' ∈ set := by
  rw [Std.ExtTreeSet.mem_insert, Std.LawfulEqCmp.compare_eq_iff_eq]

private theorem mem_erase_iff [Std.TransCmp second] [Std.LawfulEqCmp second]
    {set : Std.ExtTreeSet β second} {b b' : β} : b' ∈ set.erase b ↔ b ≠ b' ∧ b' ∈ set := by
  rw [Std.ExtTreeSet.mem_erase, ne_eq, Std.LawfulEqCmp.compare_eq_iff_eq]

/-- An alteration leaves the entries of the other keys as they are. -/
private theorem getElem?_alter_of_ne [Std.TransCmp first] [Std.LawfulEqCmp first]
    {table : Table first second} {a a' : α} (h : a ≠ a')
    {f : Option (Std.ExtTreeSet β second) → Option (Std.ExtTreeSet β second)} :
    (table.alter a f)[a']? = table[a']? := by
  rw [Std.ExtTreeMap.getElem?_alter, if_neg]
  intro heq
  exact h (Std.LawfulEqCmp.eq_of_compare heq)

variable [Std.TransCmp first] [Std.TransCmp second]
variable [Std.LawfulEqCmp first] [Std.LawfulEqCmp second]
variable {table : Table first second} {a a' : α} {b b' : β}

theorem related_link :
    Related (link table a b) a' b' ↔ a = a' ∧ b = b' ∨ Related table a' b' := by
  unfold Related link
  by_cases hkey : a = a'
  · subst hkey
    rw [Std.ExtTreeMap.getElem?_alter_self]
    cases table[a]? with
    | none => simp
    | some set => simp
  · rw [getElem?_alter_of_ne hkey]
    simp [hkey]

theorem Trim.link (h : Trim table) : Trim (link table a b) := by
  intro a' set hset
  unfold RelationTables.link at hset
  by_cases hkey : a = a'
  · subst hkey
    rw [Std.ExtTreeMap.getElem?_alter_self] at hset
    obtain rfl := Option.some.inj hset
    exact ⟨b, mem_insert_iff.mpr (.inl rfl)⟩
  · rw [getElem?_alter_of_ne hkey] at hset
    exact h a' set hset

theorem related_unlink :
    Related (unlink table a b) a' b' ↔ Related table a' b' ∧ ¬ (a = a' ∧ b = b') := by
  unfold Related unlink
  by_cases hkey : a = a'
  · subst hkey
    rw [Std.ExtTreeMap.getElem?_alter_self]
    cases table[a]? with
    | none => simp
    | some set =>
        by_cases hempty : (set.erase b).isEmpty = true
        · have hnone := Std.ExtTreeSet.eq_empty_iff_forall_not_mem.mp
            (Std.ExtTreeSet.isEmpty_iff.mp hempty)
          have honly := mt mem_erase_iff.mpr (hnone b')
          simp only [Option.bind_some, if_pos hempty, reduceCtorEq, false_and, exists_false,
            Option.some.injEq, exists_eq_left', true_and, false_iff]
          tauto
        · simp only [Option.bind_some, if_neg hempty, Option.some.injEq, exists_eq_left',
            mem_erase_iff, true_and]
          tauto
  · rw [getElem?_alter_of_ne hkey]
    simp [hkey]

omit [Std.LawfulEqCmp second] in
theorem Trim.unlink (h : Trim table) : Trim (unlink table a b) := by
  intro a' set hset
  unfold RelationTables.unlink at hset
  by_cases hkey : a = a'
  · subst hkey
    rw [Std.ExtTreeMap.getElem?_alter_self] at hset
    obtain ⟨before, hbefore, hset⟩ := Option.bind_eq_some_iff.mp hset
    split at hset
    · cases hset
    · next hempty =>
        obtain rfl := Option.some.inj hset
        by_contra hnone
        apply hempty
        rw [Std.ExtTreeSet.isEmpty_iff, Std.ExtTreeSet.eq_empty_iff_forall_not_mem]
        intro b' hb'
        exact hnone ⟨b', hb'⟩
  · rw [getElem?_alter_of_ne hkey] at hset
    exact h a' set hset

omit [Std.LawfulEqCmp second] in
/-- Erasing a key takes all of its partners. -/
theorem related_erase :
    Related (table.erase a) a' b' ↔ Related table a' b' ∧ a ≠ a' := by
  unfold Related
  rw [Std.ExtTreeMap.getElem?_erase]
  by_cases hkey : a = a'
  · subst hkey
    rw [if_pos Std.ReflCmp.compare_self]
    simp
  · rw [if_neg (mt Std.LawfulEqCmp.eq_of_compare hkey)]
    simp [hkey]

omit [Std.LawfulEqCmp first] [Std.LawfulEqCmp second] in
theorem Trim.erase (h : Trim table) : Trim (table.erase a) := by
  intro a' set hset
  rw [Std.ExtTreeMap.getElem?_erase] at hset
  split at hset
  · cases hset
  · exact h a' set hset

/-- Unlinking several keys from one partner. -/
theorem related_foldl_unlink {keys : List α} :
    Related (keys.foldl (fun table a => unlink table a b) table) a' b' ↔
      Related table a' b' ∧ ¬ (a' ∈ keys ∧ b = b') := by
  induction keys generalizing table with
  | nil => simp
  | cons key rest ih =>
      rw [List.foldl_cons, ih, related_unlink, List.mem_cons]
      tauto

omit [Std.LawfulEqCmp second] in
theorem Trim.foldl_unlink {keys : List α} (h : Trim table) :
    Trim (keys.foldl (fun table a => RelationTables.unlink table a b) table) := by
  induction keys generalizing table with
  | nil => exact h
  | cons key rest ih => exact ih h.unlink

end ConstraintRouting.Verified.RelationTables
