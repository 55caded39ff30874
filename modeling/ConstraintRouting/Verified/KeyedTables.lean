import Mathlib.Data.List.Nodup
import Std.Data.ExtTreeMap

/-!
# Tables as lists with a key

Replacing the first entry that has a key leaves every other key as it was, and a
table whose keys are distinct keeps them distinct.
-/

namespace ConstraintRouting.Verified.KeyedTables

variable {α κ : Type}

/-- The keys are distinct, and none of them is among the ones seen before. -/
structure Distinct (seen keys : List κ) : Prop where
  nodup : keys.Nodup
  unseen : ∀ key ∈ keys, key ∉ seen

theorem distinct_nil {seen : List κ} : Distinct seen [] :=
  ⟨List.nodup_nil, fun _ h => absurd h List.not_mem_nil⟩

/-- A scan that remembers the keys it has seen checks that they are distinct. -/
theorem distinct_cons {seen keys : List κ} {key : κ} :
    Distinct seen (key :: keys) ↔ key ∉ seen ∧ Distinct (key :: seen) keys := by
  constructor
  · intro h
    obtain ⟨hmissing, hnodup⟩ := List.nodup_cons.mp h.nodup
    refine ⟨h.unseen key List.mem_cons_self, hnodup, fun later hlater hseen => ?_⟩
    rcases List.mem_cons.mp hseen with rfl | hearlier
    · exact hmissing hlater
    · exact h.unseen later (List.mem_cons_of_mem _ hlater) hearlier
  · intro h
    obtain ⟨hunseen, hrest⟩ := h
    refine ⟨List.nodup_cons.mpr ⟨fun hlater => ?_, hrest.nodup⟩, fun later hlater => ?_⟩
    · exact hrest.unseen key hlater List.mem_cons_self
    · rcases List.mem_cons.mp hlater with rfl | hrested
      · exact hunseen
      · exact fun hseen => hrest.unseen later hrested (List.mem_cons_of_mem _ hseen)

theorem distinct_empty {keys : List κ} : Distinct [] keys ↔ keys.Nodup :=
  ⟨fun h => h.nodup, fun h => ⟨h, fun _ _ => List.not_mem_nil⟩⟩

/-- Replaces the first element that satisfies the predicate. -/
def replaceFirst (selected : α → Bool) (replacement : α) : List α → List α
  | [] => []
  | a :: rest =>
      if selected a then replacement :: rest else a :: replaceFirst selected replacement rest

@[simp] theorem length_replaceFirst {selected : α → Bool} {replacement : α}
    {table : List α} : (replaceFirst selected replacement table).length = table.length := by
  induction table with
  | nil => rfl
  | cons first rest ih =>
      rw [replaceFirst]
      split
      · rfl
      · rw [List.length_cons, List.length_cons, ih]

theorem mem_replaceFirst {selected : α → Bool} {replacement a : α} {table : List α}
    (h : a ∈ replaceFirst selected replacement table) : a = replacement ∨ a ∈ table := by
  induction table with
  | nil => cases h
  | cons first rest ih =>
      rw [replaceFirst] at h
      split at h
      · rcases List.mem_cons.mp h with heq | hrest
        · exact .inl heq
        · exact .inr (List.mem_cons_of_mem _ hrest)
      · rcases List.mem_cons.mp h with rfl | hrest
        · exact .inr List.mem_cons_self
        · exact (ih hrest).imp id (List.mem_cons_of_mem _)

variable [BEq κ] [LawfulBEq κ] {key : α → κ} {replacement : α} {table : List α}
  {replaced : κ}

/-- Replacing an entry under its own key changes no key. -/
theorem map_key_replaceFirst (hkey : key replacement = replaced) :
    (replaceFirst (key · == replaced) replacement table).map key = table.map key := by
  induction table with
  | nil => rfl
  | cons first rest ih =>
      rw [replaceFirst]
      split
      · next hselected => simp [beq_iff_eq.mp hselected, hkey]
      · simp [ih]

/-- The replacement is what its key finds, if the key was there. -/
theorem find?_replaceFirst_self (hkey : key replacement = replaced)
    (hfound : (table.find? (key · == replaced)).isSome = true) :
    (replaceFirst (key · == replaced) replacement table).find? (key · == replaced) =
      some replacement := by
  induction table with
  | nil => cases hfound
  | cons first rest ih =>
      rw [replaceFirst]
      split
      · exact List.find?_cons_of_pos (beq_iff_eq.mpr hkey)
      · next hother =>
          have hmiss : (key first == replaced) = false := eq_false_of_ne_true hother
          simp only [List.find?_cons, hmiss] at hfound ⊢
          exact ih hfound

/-- Another key finds what it found. -/
theorem find?_replaceFirst_of_ne {wanted : κ} (hkey : key replacement = replaced)
    (hne : replaced ≠ wanted) :
    (replaceFirst (key · == replaced) replacement table).find? (key · == wanted) =
      table.find? (key · == wanted) := by
  have hmiss : (replaced == wanted) = false := beq_eq_false_iff_ne.mpr hne
  induction table with
  | nil => rfl
  | cons first rest ih =>
      rw [replaceFirst]
      split
      · next hselected =>
          simp only [List.find?_cons, beq_iff_eq.mp hselected, hkey, hmiss]
      · simp only [List.find?_cons, ih]

/-- An entry after a table is found when nothing in it has its key. -/
theorem find?_concat_self {entry : α} (hkey : key entry = replaced)
    (hmissing : table.find? (key · == replaced) = none) :
    (table ++ [entry]).find? (key · == replaced) = some entry := by
  simp [List.find?_append, hmissing, hkey]

/-- An entry after a table is not found under another key. -/
theorem find?_concat_of_ne {entry : α} {wanted : κ} (hne : key entry ≠ wanted) :
    (table ++ [entry]).find? (key · == wanted) = table.find? (key · == wanted) := by
  simp [List.find?_append, hne]

/-- With distinct keys, an entry is what its key finds. -/
theorem find?_of_mem {entry : α} (hdistinct : (table.map key).Nodup) (hmem : entry ∈ table) :
    table.find? (key · == key entry) = some entry := by
  induction table with
  | nil => cases hmem
  | cons first rest ih =>
      rw [List.map_cons, List.nodup_cons] at hdistinct
      rcases List.mem_cons.mp hmem with rfl | hrest
      · exact List.find?_cons_of_pos (beq_self_eq_true _)
      · have hmiss : (key first == key entry) = false := by
          rw [beq_eq_false_iff_ne]
          intro hsame
          exact hdistinct.1 (hsame ▸ List.mem_map_of_mem hrest)
        simp only [List.find?_cons, hmiss]
        exact ih hdistinct.2 hrest

/-- With distinct keys, an entry is the only one under its key. -/
theorem filter_key_of_mem {entry : α} (hdistinct : (table.map key).Nodup)
    (hmem : entry ∈ table) : table.filter (key · == key entry) = [entry] := by
  induction table with
  | nil => cases hmem
  | cons first rest ih =>
      rw [List.map_cons, List.nodup_cons] at hdistinct
      rcases List.mem_cons.mp hmem with rfl | hrest
      · have hnone : rest.filter (key · == key entry) = [] := by
          rw [List.filter_eq_nil_iff]
          intro other hother hsame
          exact hdistinct.1 (beq_iff_eq.mp hsame ▸ List.mem_map_of_mem hother)
        simp only [List.filter_cons, beq_self_eq_true, if_true, hnone]
      · have hmiss : ¬ (key first == key entry) = true := by
          intro hsame
          exact hdistinct.1 (beq_iff_eq.mp hsame ▸ List.mem_map_of_mem hrest)
        simp only [List.filter_cons, hmiss, Bool.false_eq_true, if_false]
        exact ih hdistinct.2 hrest

/-! ## Tables filled from a list -/

section Filled

variable {κ α : Type} {cmp : κ → κ → Ordering} {key : α → κ} {entries : List α}

/-- The values of a table are the second halves of its entries. -/
theorem values_eq_map_toList (table : Std.ExtTreeMap κ α cmp) [Std.TransCmp cmp] :
    table.values = table.toList.map (·.2) := by
  have hfold : table.values = table.foldr (fun _ value rest => value :: rest) [] := by
    obtain ⟨⟨table⟩⟩ := table
    rfl
  rw [hfold, Std.ExtTreeMap.foldr_eq_foldr_toList]
  induction table.toList with
  | nil => rfl
  | cons entry rest ih => exact congrArg (entry.2 :: ·) ih

/-- Enters the entries under their keys; a key keeps its first entry. -/
def fill (key : α → κ) [Std.TransCmp cmp] (entries : List α) : Std.ExtTreeMap κ α cmp :=
  entries.foldl (fun table entry => table.insertIfNew (key entry) entry) ∅

variable [Std.TransCmp cmp] [Std.LawfulEqCmp cmp] [BEq κ] [LawfulBEq κ]

/-- A filled table holds under a key what the list finds. -/
theorem getElem?_fill (wanted : κ) :
    (fill key entries : Std.ExtTreeMap κ α cmp)[wanted]? =
      entries.find? (key · == wanted) := by
  have hfold : ∀ table : Std.ExtTreeMap κ α cmp,
      (entries.foldl (fun table entry => table.insertIfNew (key entry) entry) table)[wanted]? =
        table[wanted]?.or (entries.find? (key · == wanted)) := by
    induction entries with
    | nil =>
        intro table
        simp
    | cons first rest ih =>
        intro table
        rw [List.foldl_cons, ih, Std.ExtTreeMap.getElem?_insertIfNew]
        by_cases hkey : key first = wanted
        · have hself : cmp (key first) wanted = .eq := hkey ▸ Std.ReflCmp.compare_self
          have hfound : (first :: rest).find? (key · == wanted) = some first :=
            List.find?_cons_of_pos (beq_iff_eq.mpr hkey)
          rw [hfound]
          by_cases hmem : key first ∈ table
          · obtain ⟨value, hvalue⟩ :=
              Option.isSome_iff_exists.mp (Std.ExtTreeMap.mem_iff_isSome_getElem?.mp hmem)
            rw [hkey] at hvalue
            simp [hmem, hvalue]
          · have hnone : table[wanted]? = none := by
              rw [← hkey]
              exact Std.ExtTreeMap.getElem?_eq_none hmem
            simp [hself, hmem, hnone]
        · have hother : cmp (key first) wanted ≠ .eq :=
            fun heq => hkey (Std.LawfulEqCmp.eq_of_compare heq)
          have hmissed : (first :: rest).find? (key · == wanted) =
              rest.find? (key · == wanted) :=
            List.find?_cons_of_neg (by simpa using hkey)
          rw [hmissed, if_neg (fun h => hother h.1)]
  rw [fill, hfold, Std.ExtTreeMap.getElem?_empty, Option.none_or]

/-- A table that enters values under distinct keys holds under a key the value of the
entry that the list finds. -/
theorem getElem?_foldl_insert {β : Type} {value : α → β} (hdistinct : (entries.map key).Nodup)
    (wanted : κ) :
    (entries.foldl (fun table entry => table.insert (key entry) (value entry))
      (∅ : Std.ExtTreeMap κ β cmp))[wanted]? =
      (entries.find? (key · == wanted)).map value := by
  have hfold : ∀ table : Std.ExtTreeMap κ β cmp,
      (entries.foldl (fun table entry => table.insert (key entry) (value entry)) table)[wanted]? =
        ((entries.find? (key · == wanted)).map value).or table[wanted]? := by
    induction entries with
    | nil =>
        intro table
        simp
    | cons first rest ih =>
        intro table
        rw [List.map_cons, List.nodup_cons] at hdistinct
        rw [List.foldl_cons, ih hdistinct.2, Std.ExtTreeMap.getElem?_insert]
        by_cases hkey : key first = wanted
        · have hself : cmp (key first) wanted = .eq := hkey ▸ Std.ReflCmp.compare_self
          have hfound : (first :: rest).find? (key · == wanted) = some first :=
            List.find?_cons_of_pos (beq_iff_eq.mpr hkey)
          have hlater : rest.find? (key · == wanted) = none := by
            rw [List.find?_eq_none]
            intro other hother hsame
            have hother := @List.mem_map_of_mem _ _ _ _ key hother
            rw [beq_iff_eq.mp hsame, ← hkey] at hother
            exact hdistinct.1 hother
          rw [hfound, hlater, if_pos hself]
          rfl
        · have hother : cmp (key first) wanted ≠ .eq :=
            fun heq => hkey (Std.LawfulEqCmp.eq_of_compare heq)
          have hmissed : (first :: rest).find? (key · == wanted) =
              rest.find? (key · == wanted) :=
            List.find?_cons_of_neg (by simpa using hkey)
          rw [hmissed, if_neg hother]
  rw [hfold, Std.ExtTreeMap.getElem?_empty, Option.or_none]

/-- Entries with distinct keys are the values of the table that they fill. -/
theorem values_fill_perm (hdistinct : (entries.map key).Nodup) :
    (fill key entries : Std.ExtTreeMap κ α cmp).values.Perm entries := by
  have hlookup : ∀ pair : κ × α, pair ∈ (fill key entries : Std.ExtTreeMap κ α cmp).toList ↔
      pair.2 ∈ entries ∧ key pair.2 = pair.1 := by
    intro pair
    obtain ⟨wanted, value⟩ := pair
    rw [Std.ExtTreeMap.mem_toList_iff_getElem?_eq_some, getElem?_fill]
    dsimp only
    constructor
    · intro hfound
      have hkey : (key value == wanted) = true :=
        List.find?_some (p := fun value => key value == wanted) hfound
      exact ⟨List.mem_of_find?_eq_some hfound, beq_iff_eq.mp hkey⟩
    · intro h
      obtain ⟨hmem, rfl⟩ := h
      exact find?_of_mem hdistinct hmem
  rw [values_eq_map_toList]
  refine (List.perm_ext_iff_of_nodup ?_ (List.Nodup.of_map key hdistinct)).mpr fun value => ?_
  · rw [List.Nodup, List.pairwise_map]
    refine Std.ExtTreeMap.distinct_keys_toList.imp_of_mem fun {a b} ha hb hne hsame => hne ?_
    have hkeys : a.1 = b.1 := by
      rw [← ((hlookup a).mp ha).2, ← ((hlookup b).mp hb).2, hsame]
    rw [hkeys]
    exact Std.ReflCmp.compare_self
  · constructor
    · intro hmem
      obtain ⟨pair, hpair, rfl⟩ := List.mem_map.mp hmem
      exact ((hlookup pair).mp hpair).1
    · intro hmem
      exact List.mem_map.mpr ⟨(key value, value), (hlookup _).mpr ⟨hmem, rfl⟩, rfl⟩

end Filled

end ConstraintRouting.Verified.KeyedTables
