import Mathlib.Data.List.Sort
import Mathlib.Data.List.Destutter
import Mathlib.Order.Compare
import Std.Data.ExtTreeMap

/-!
# Sorted lists under a three-way comparison

Canonical forms are made of lists that a comparison sorts and from which equal
neighbours are dropped.  The sort is stable, so it also models a stable sort
under a comparison that identifies distinct values.
-/

namespace ConstraintRouting.Verified.SortedLists

variable {α : Type}

/-- `a` may stand before `b`: the comparison does not put `b` first. -/
abbrev NotAfter (cmp : α → α → Ordering) (a b : α) : Prop := cmp b a ≠ .lt

/-- Stable sort by a comparison. -/
def sortBy (cmp : α → α → Ordering) (xs : List α) : List α :=
  xs.insertionSort (NotAfter cmp)

/-- Every element is strictly below the next one. -/
def strictlyAscending (cmp : α → α → Ordering) (xs : List α) : Bool :=
  decide (xs.IsChain fun a b => cmp a b = .lt)

/-- Drops every element that equals the last one kept. -/
def dropRepeats [DecidableEq α] (xs : List α) : List α := xs.destutter (· ≠ ·)

/-- Sorted, with equal neighbours dropped. -/
def sortUnique [DecidableEq α] (cmp : α → α → Ordering) (xs : List α) : List α :=
  dropRepeats (sortBy cmp xs)

/-- Some element has the same key as the next one. -/
def adjacentSameKey {κ : Type} [DecidableEq κ] (key : α → κ) (xs : List α) : Bool :=
  !decide (xs.IsChain fun a b => key a ≠ key b)

theorem sortBy_perm (cmp : α → α → Ordering) (xs : List α) :
    (sortBy cmp xs).Perm xs :=
  List.perm_insertionSort _ xs

@[simp] theorem mem_sortBy {cmp : α → α → Ordering} {xs : List α} {x : α} :
    x ∈ sortBy cmp xs ↔ x ∈ xs :=
  (sortBy_perm cmp xs).mem_iff

@[simp] theorem length_sortBy (cmp : α → α → Ordering) (xs : List α) :
    (sortBy cmp xs).length = xs.length :=
  (sortBy_perm cmp xs).length_eq

/-! ## Comparisons -/

/-- The comparison that tells nothing apart. -/
theorem transCmp_eq : Std.TransCmp fun _ _ : α => Ordering.eq where
  eq_swap := rfl
  isLE_trans _ _ := rfl

/-- A comparison of images. -/
theorem transCmp_image {β : Type} (image : α → β) (cmp : β → β → Ordering) [Std.TransCmp cmp] :
    Std.TransCmp fun a b => cmp (image a) (image b) where
  eq_swap := Std.OrientedCmp.eq_swap
  isLE_trans := Std.TransCmp.isLE_trans

/-! ## Strictly ascending lists -/

section Ascending

variable {cmp : α → α → Ordering} [Std.TransCmp cmp]

instance transLt : Trans (fun a b => cmp a b = .lt) (fun a b => cmp a b = .lt)
    (fun a b => cmp a b = .lt) where
  trans := Std.TransCmp.lt_trans

/-- A strictly ascending list has every element below all the later ones. -/
theorem strictlyAscending_iff_pairwise {xs : List α} :
    strictlyAscending cmp xs = true ↔ xs.Pairwise fun a b => cmp a b = .lt := by
  unfold strictlyAscending
  rw [decide_eq_true_iff]
  exact List.isChain_iff_pairwise

end Ascending

/-! ## Canonical forms -/

section Canonical

/-- Dropping repeats loses no element. -/
theorem mem_dropRepeats [DecidableEq α] {xs : List α} {x : α} : x ∈ dropRepeats xs ↔ x ∈ xs := by
  have hkeeps : ∀ (rest : List α) (last : α), x ∈ last :: rest →
      x ∈ rest.destutter' (· ≠ ·) last := by
    intro rest
    induction rest with
    | nil =>
        intro last h
        exact h
    | cons next rest ih =>
        intro last h
        by_cases hsame : last = next
        · subst hsame
          rw [List.destutter'_cons_neg _ (by simp)]
          exact ih last (by simpa using h)
        · rw [List.destutter'_cons_pos _ hsame]
          rcases List.mem_cons.mp h with hhead | htail
          · exact List.mem_cons.mpr (.inl hhead)
          · exact List.mem_cons_of_mem _ (ih next htail)
  constructor
  · intro h
    exact (List.destutter_sublist _ _).subset h
  · intro h
    cases xs with
    | nil => cases h
    | cons first rest => exact hkeeps rest first h

theorem mem_sortUnique [DecidableEq α] {cmp : α → α → Ordering} {xs : List α} {x : α} :
    x ∈ sortUnique cmp xs ↔ x ∈ xs :=
  mem_dropRepeats.trans mem_sortBy

theorem length_sortUnique_le [DecidableEq α] (cmp : α → α → Ordering) (xs : List α) :
    (sortUnique cmp xs).length ≤ xs.length :=
  (List.destutter_sublist _ _).length_le.trans (length_sortBy cmp xs).le

@[simp] theorem isEmpty_sortUnique [DecidableEq α] (cmp : α → α → Ordering) (xs : List α) :
    (sortUnique cmp xs).isEmpty = xs.isEmpty := by
  have hempty : sortUnique cmp xs = [] ↔ xs = [] :=
    (List.destutter_eq_nil (· ≠ ·)).trans
      ⟨fun h => (h ▸ sortBy_perm cmp xs).nil_eq.symm, by rintro rfl; rfl⟩
  rw [Bool.eq_iff_iff, List.isEmpty_iff, List.isEmpty_iff, hempty]

variable {cmp : α → α → Ordering} [Std.TransCmp cmp]

instance : Std.Total (NotAfter cmp) where
  total a b := by
    rcases hab : cmp a b with _ | _ | _
    · exact .inl (by simp [NotAfter, Std.OrientedCmp.gt_of_lt hab])
    · exact .inr (by simp [NotAfter, hab])
    · exact .inr (by simp [NotAfter, hab])

instance : IsTrans α (NotAfter cmp) where
  trans a b c hab hbc := by
    intro hca
    rcases hba : cmp b a with _ | _ | _
    · exact hab hba
    · exact hbc (Std.TransCmp.lt_of_lt_of_eq hca (Std.OrientedCmp.eq_symm hba))
    · exact hbc (Std.TransCmp.lt_trans hca (Std.OrientedCmp.lt_of_gt hba))

/-- Dropping from a sorted list what compares equal to its predecessor leaves a
strictly ascending list. -/
theorem strictlyAscending_destutter {keep : α → α → Prop} [DecidableRel keep]
    (hkeep : ∀ a b, keep a b → cmp a b ≠ .eq) (xs : List α) :
    strictlyAscending cmp ((sortBy cmp xs).destutter keep) = true := by
  have hsorted : (sortBy cmp xs).Pairwise (NotAfter cmp) :=
    List.pairwise_insertionSort (NotAfter cmp) xs
  have hordered : ((sortBy cmp xs).destutter keep).IsChain (NotAfter cmp) :=
    (hsorted.sublist (List.destutter_sublist _ _)).isChain
  have hkept : ((sortBy cmp xs).destutter keep).IsChain keep :=
    List.isChain_destutter _ _
  rw [List.isChain_iff_getElem] at hordered hkept
  refine decide_eq_true (List.isChain_iff_getElem.mpr fun i hi => ?_)
  rcases hab : cmp _ _ with _ | _ | _
  · rfl
  · exact absurd hab (hkeep _ _ (hkept i hi))
  · exact absurd (Std.OrientedCmp.lt_of_gt hab) (hordered i hi)

/-- The canonical form of a list is strictly ascending. -/
theorem strictlyAscending_sortUnique [DecidableEq α] [Std.LawfulEqCmp cmp] (xs : List α) :
    strictlyAscending cmp (sortUnique cmp xs) = true :=
  strictlyAscending_destutter (fun _ _ hne heq => hne (Std.LawfulEqCmp.eq_of_compare heq)) xs

/-- Two strictly ascending lists of the same elements are equal. -/
theorem ascending_eq_of_mem_iff {xs ys : List α} (hxs : xs.Pairwise fun a b => cmp a b = .lt)
    (hys : ys.Pairwise fun a b => cmp a b = .lt) (h : ∀ x, x ∈ xs ↔ x ∈ ys) : xs = ys := by
  have hirreflexive : Std.Irrefl fun a b : α => cmp a b = .lt := by
    constructor
    intro a hless
    have hself : cmp a a = .eq := Std.ReflCmp.compare_self
    rw [hself] at hless
    cases hless
  have hantisymmetric : Std.Antisymm fun a b : α => cmp a b = .lt := by
    constructor
    intro a b hless hgreater
    rw [Std.OrientedCmp.gt_of_lt hless] at hgreater
    cases hgreater
  exact List.Pairwise.eq_of_mem_iff hxs hys h

/-- The canonical form of a list depends on its elements only. -/
theorem sortUnique_eq_of_mem_iff [DecidableEq α] [Std.LawfulEqCmp cmp] {xs ys : List α}
    (h : ∀ x, x ∈ xs ↔ x ∈ ys) : sortUnique cmp xs = sortUnique cmp ys := by
  apply @ascending_eq_of_mem_iff _ cmp _
  · exact strictlyAscending_iff_pairwise.mp (strictlyAscending_sortUnique xs)
  · exact strictlyAscending_iff_pairwise.mp (strictlyAscending_sortUnique ys)
  · intro x
    rw [mem_sortUnique, mem_sortUnique]
    exact h x

/-- Sorting leaves an ascending list as it is. -/
theorem sortBy_eq_self {xs : List α} (h : xs.Pairwise fun a b => cmp a b = .lt) :
    sortBy cmp xs = xs := by
  apply List.Pairwise.insertionSort_eq
  apply h.imp
  intro a b hless hgreater
  rw [Std.OrientedCmp.gt_of_lt hless] at hgreater
  cases hgreater

/-- A strictly ascending list is its own canonical form. -/
theorem sortUnique_eq_self [DecidableEq α] {xs : List α}
    (h : strictlyAscending cmp xs = true) : sortUnique cmp xs = xs := by
  have hascending := strictlyAscending_iff_pairwise.mp h
  have hapart : xs.IsChain (· ≠ ·) := by
    apply List.Pairwise.isChain
    apply hascending.imp
    rintro a b hless rfl
    have hself : cmp a a = .eq := Std.ReflCmp.compare_self
    rw [hself] at hless
    cases hless
  unfold sortUnique dropRepeats
  rw [sortBy_eq_self hascending, List.destutter_of_isChain _ _ hapart]

end Canonical

/-! ## Two sorts of one list -/

/-- A map that carries one comparison to the other carries one sort to the other. -/
theorem map_sortBy {β : Type} {f : α → β} {cmp : α → α → Ordering} {image : β → β → Ordering}
    (h : ∀ a b, image (f a) (f b) = cmp a b) (xs : List α) :
    (sortBy cmp xs).map f = sortBy image (xs.map f) := by
  apply List.map_insertionSort
  intro a _ b _
  show cmp b a ≠ .lt ↔ image (f b) (f a) ≠ .lt
  rw [h]

/-- The sort is stable: elements of which none goes before another keep their order. -/
theorem filter_sortBy {cmp : α → α → Ordering} {p : α → Bool}
    (halike : ∀ a b, p a = true → p b = true → cmp a b ≠ .lt) (xs : List α) :
    (sortBy cmp xs).filter p = xs.filter p := by
  have hordered : (xs.filter p).Pairwise (NotAfter cmp) := by
    apply List.pairwise_of_forall_mem_list
    intro a ha b hb
    exact halike b a (List.mem_filter.mp hb).2 (List.mem_filter.mp ha).2
  have hkept : (xs.filter p).Sublist (sortBy cmp xs) :=
    List.sublist_insertionSort hordered List.filter_sublist
  have hselected : (xs.filter p).Sublist ((sortBy cmp xs).filter p) := by
    have hfiltered := hkept.filter p
    rw [List.filter_filter] at hfiltered
    simpa only [Bool.and_self] using hfiltered
  have hlength : (xs.filter p).length = ((sortBy cmp xs).filter p).length :=
    ((sortBy_perm cmp xs).filter p).length_eq.symm
  exact (hselected.eq_of_length hlength).symm

section TwoSorts

variable {first second : α → α → Ordering} [Std.TransCmp first] [Std.TransCmp second]
  {xs ys : List α}

/-- Elements of which neither goes after the other are equal in the order. -/
theorem eq_of_notAfter {a b : α} (hab : NotAfter first a b) (hba : NotAfter first b a) :
    first a b = .eq := by
  cases hcompare : first a b with
  | lt => exact absurd hcompare hba
  | eq => rfl
  | gt => exact absurd (Std.OrientedCmp.lt_of_gt hcompare) hab

/-- A sorted list ascends strictly exactly when no two of its elements are equal in the
order. -/
theorem pairwise_lt_iff_of_sorted (hsorted : xs.Pairwise (NotAfter first)) :
    xs.Pairwise (fun a b => first a b = .lt) ↔ xs.Pairwise fun a b => first a b ≠ .eq := by
  constructor
  · intro hascending
    apply hascending.imp
    intro a b hless hequal
    rw [hless] at hequal
    cases hequal
  · intro hapart
    apply (hsorted.and hapart).imp
    rintro a b ⟨hordered, hne⟩
    cases hcompare : first a b with
    | lt => rfl
    | eq => exact absurd hcompare hne
    | gt => exact absurd (Std.OrientedCmp.lt_of_gt hcompare) hordered

/-- A list is sorted strictly exactly when no two of its elements are equal in the order. -/
theorem sortBy_pairwise_lt_iff :
    (sortBy first xs).Pairwise (fun a b => first a b = .lt) ↔
      xs.Pairwise fun a b => first a b ≠ .eq := by
  have hsymmetric : ∀ {a b : α}, first a b ≠ .eq → first b a ≠ .eq := by
    intro a b hne hequal
    exact hne (Std.OrientedCmp.eq_symm hequal)
  have hpairs : (sortBy first xs).Pairwise (fun a b => first a b ≠ .eq) ↔
      xs.Pairwise fun a b => first a b ≠ .eq :=
    (sortBy_perm first xs).pairwise_iff hsymmetric
  rw [← hpairs]
  exact pairwise_lt_iff_of_sorted (List.pairwise_insertionSort _ xs)

/-- A list without repetitions, under a comparison that separates its elements, is sorted
strictly. -/
theorem sortBy_pairwise_lt (hnodup : xs.Nodup)
    (hseparates : ∀ a ∈ xs, ∀ b ∈ xs, first a b = .eq → a = b) :
    (sortBy first xs).Pairwise fun a b => first a b = .lt := by
  rw [sortBy_pairwise_lt_iff]
  apply hnodup.imp_of_mem
  intro a b ha hb hother hequal
  exact hother (hseparates a ha b hb hequal)

/-- A list of distinct keys is sorted strictly by them. -/
theorem sortBy_key_ascending {κ : Type} [Ord κ] [Std.TransOrd κ] [Std.LawfulEqOrd κ]
    {key : α → κ} (hdistinct : (xs.map key).Nodup) :
    (sortBy (compareOn key) xs).Pairwise fun a b => compare (key a) (key b) = .lt := by
  rw [List.Nodup, List.pairwise_map] at hdistinct
  apply (@sortBy_pairwise_lt_iff _ (compareOn key) _ _).mpr
  apply hdistinct.imp
  intro a b hother hsame
  exact hother (Std.LawfulEqOrd.eq_of_compare hsame)

/-- Selecting from a list before it is sorted is selecting from the sorted list. -/
theorem sortBy_filter (hnodup : xs.Nodup)
    (hseparates : ∀ a ∈ xs, ∀ b ∈ xs, first a b = .eq → a = b) (selected : α → Bool) :
    sortBy first (xs.filter selected) = (sortBy first xs).filter selected := by
  apply @ascending_eq_of_mem_iff _ first _
  · apply sortBy_pairwise_lt (hnodup.filter selected)
    intro a ha b hb
    exact hseparates a (List.mem_of_mem_filter ha) b (List.mem_of_mem_filter hb)
  · exact (sortBy_pairwise_lt hnodup hseparates).filter selected
  · intro x
    rw [mem_sortBy, List.mem_filter, List.mem_filter, mem_sortBy]

/-- Two separating comparisons sort two lists alike exactly when the lists have the same
elements and the comparisons agree on them. -/
theorem sortBy_eq_sortBy_iff (hxs : xs.Nodup) (hys : ys.Nodup)
    (hfirst : ∀ a ∈ xs, ∀ b ∈ xs, first a b = .eq → a = b)
    (hsecond : ∀ a ∈ ys, ∀ b ∈ ys, second a b = .eq → a = b) :
    sortBy first xs = sortBy second ys ↔
      xs.Perm ys ∧ ∀ a ∈ xs, ∀ b ∈ xs, first a b = second a b := by
  constructor
  · intro hsame
    have hperm : xs.Perm ys :=
      (sortBy_perm first xs).symm.trans (hsame ▸ sortBy_perm second ys)
    refine ⟨hperm, ?_⟩
    have hone := sortBy_pairwise_lt hxs hfirst
    have htwo := sortBy_pairwise_lt hys hsecond
    rw [← hsame] at htwo
    have hagree : (sortBy first xs).Pairwise fun a b => first a b = second a b :=
      (hone.and htwo).imp fun h => h.1.trans h.2.symm
    have hsymmetric : Std.Symm fun a b => first a b = second a b := by
      constructor
      intro a b h
      rw [@Std.OrientedCmp.eq_swap _ first, @Std.OrientedCmp.eq_swap _ second, h]
    have hall : ∀ a ∈ sortBy first xs, ∀ b ∈ sortBy first xs, first a b = second a b := by
      refine hagree.forall_of_forall fun a _ => ?_
      have hself : first a a = .eq := Std.ReflCmp.compare_self
      have hother : second a a = .eq := Std.ReflCmp.compare_self
      rw [hself, hother]
    intro a ha b hb
    exact hall a (mem_sortBy.mpr ha) b (mem_sortBy.mpr hb)
  · intro ⟨hperm, hagree⟩
    have hone : (sortBy first xs).Pairwise (NotAfter first) :=
      List.pairwise_insertionSort _ xs
    have htwo : (sortBy second ys).Pairwise (NotAfter first) := by
      have hsorted : (sortBy second ys).Pairwise (NotAfter second) :=
        List.pairwise_insertionSort _ ys
      refine hsorted.imp_of_mem ?_
      intro a b ha hb hordered
      have hback := hagree b (hperm.mem_iff.mpr (mem_sortBy.mp hb)) a
        (hperm.mem_iff.mpr (mem_sortBy.mp ha))
      show first b a ≠ .lt
      rw [hback]
      exact hordered
    have hsorts : (sortBy first xs).Perm (sortBy second ys) :=
      (sortBy_perm first xs).trans (hperm.trans (sortBy_perm second ys).symm)
    refine List.Perm.eq_of_pairwise ?_ hone htwo hsorts
    intro a b ha hb hab hba
    have hmem : b ∈ xs := hperm.mem_iff.mpr (mem_sortBy.mp hb)
    exact hfirst a (mem_sortBy.mp ha) b hmem (eq_of_notAfter hab hba)

/-- Under a comparison that separates the elements, the sorted list does not depend on their
order. -/
theorem sortBy_eq_of_perm (hseparates : ∀ a ∈ xs, ∀ b ∈ xs, first a b = .eq → a = b)
    (h : xs.Perm ys) : sortBy first xs = sortBy first ys := by
  have hone : (sortBy first xs).Pairwise (NotAfter first) := List.pairwise_insertionSort _ xs
  have htwo : (sortBy first ys).Pairwise (NotAfter first) := List.pairwise_insertionSort _ ys
  have hsorts : (sortBy first xs).Perm (sortBy first ys) :=
    (sortBy_perm first xs).trans (h.trans (sortBy_perm first ys).symm)
  apply List.Perm.eq_of_pairwise _ hone htwo hsorts
  intro a b ha hb hab hba
  have hmem : b ∈ xs := h.mem_iff.mpr (mem_sortBy.mp hb)
  exact hseparates a (mem_sortBy.mp ha) b hmem (eq_of_notAfter hab hba)

/-- Every arrangement of a list sorts alike exactly when elements that are equal in the order
are equal. -/
theorem sortBy_arrangement_iff :
    (∀ zs, xs.Perm zs → sortBy first zs = sortBy first xs) ↔
      ∀ a ∈ xs, ∀ b ∈ xs, first a b = .eq → a = b := by
  classical
  constructor
  · intro hsame a ha b hb hequal
    by_contra hne
    have hother : b ∈ xs.erase a := (List.mem_erase_of_ne (Ne.symm hne)).mpr hb
    have hperm : xs.Perm (a :: b :: (xs.erase a).erase b) :=
      (List.perm_cons_erase ha).trans ((List.perm_cons_erase hother).cons a)
    have hswapped := hsame _ (hperm.trans (List.Perm.swap b a _))
    rw [← hsame _ hperm] at hswapped
    -- The class of `a` keeps its order in both sorts.
    let alike : α → Bool := fun x => first a x = .eq
    have hclass : ∀ x y, alike x = true → alike y = true → first x y ≠ .lt := by
      intro x y hx hy hless
      have hxy : first x y = .eq :=
        Std.TransCmp.eq_trans (Std.OrientedCmp.eq_symm (of_decide_eq_true hx))
          (of_decide_eq_true hy)
      rw [hxy] at hless
      cases hless
    have hfiltered := congrArg (List.filter alike) hswapped
    rw [filter_sortBy hclass, filter_sortBy hclass] at hfiltered
    have hself : alike a = true := decide_eq_true Std.ReflCmp.compare_self
    have hsecond : alike b = true := decide_eq_true hequal
    rw [List.filter_cons_of_pos hself, List.filter_cons_of_pos hsecond,
      List.filter_cons_of_pos hsecond] at hfiltered
    exact hne (List.cons_eq_cons.mp hfiltered).1.symm
  · intro hseparates zs hperm
    exact (sortBy_eq_of_perm hseparates hperm).symm

end TwoSorts

/-- Keys ascend in a list that is sorted by them first. -/
theorem keys_ordered {κ : Type} [Ord κ] {key : α → κ} {rest : α → α → Ordering}
    {values : List α} [Std.TransCmp (compareLex (compareOn key) rest)]
    (hsorted : strictlyAscending (compareLex (compareOn key) rest) values = true) :
    values.Pairwise fun a b => compare (key a) (key b) ≠ .gt := by
  apply (strictlyAscending_iff_pairwise.mp hsorted).imp
  intro a b hless hgreater
  unfold compareLex compareOn at hless
  rw [hgreater] at hless
  cases hless

/-- A list that ascends by a key first has ascending keys when they are distinct. -/
theorem keys_ascending {κ : Type} [Ord κ] [Std.LawfulEqOrd κ] {key : α → κ}
    {rest : α → α → Ordering} {values : List α}
    [Std.TransCmp (compareLex (compareOn key) rest)]
    (hsorted : strictlyAscending (compareLex (compareOn key) rest) values = true)
    (hdistinct : (values.map key).Nodup) :
    values.Pairwise fun a b => compare (key a) (key b) = .lt := by
  rw [List.Nodup, List.pairwise_map] at hdistinct
  apply ((keys_ordered hsorted).and hdistinct).imp
  rintro a b ⟨hordered, hne⟩
  cases hcompare : compare (key a) (key b) with
  | lt => rfl
  | eq => exact absurd (Std.LawfulEqOrd.eq_of_compare hcompare) hne
  | gt => exact absurd hcompare hordered

/-- In a list that ascends by a key first, repeated keys are neighbours. -/
theorem adjacentSameKey_eq_false_iff {κ : Type} [Ord κ] [DecidableEq κ] [Std.TransOrd κ]
    [Std.LawfulEqOrd κ] {key : α → κ} {rest : α → α → Ordering} {values : List α}
    [Std.TransCmp (compareLex (compareOn key) rest)]
    (hsorted : strictlyAscending (compareLex (compareOn key) rest) values = true) :
    adjacentSameKey key values = false ↔ (values.map key).Nodup := by
  unfold adjacentSameKey
  rw [Bool.not_eq_false', decide_eq_true_iff]
  constructor
  · intro hapart
    have hordered := (keys_ordered hsorted).isChain
    have hascending : values.IsChain fun a b => compareOn key a b = .lt := by
      rw [List.isChain_iff_getElem] at *
      intro i hi
      rcases hcompare : compareOn key _ _ with _ | _ | _
      · rfl
      · exact absurd (Std.LawfulEqOrd.eq_of_compare hcompare) (hapart i hi)
      · exact absurd hcompare (hordered i hi)
    rw [List.Nodup, List.pairwise_map]
    apply (List.isChain_iff_pairwise.mp hascending).imp
    intro a b hless hsame
    have hself : compare (key a) (key b) = .eq := hsame ▸ Std.ReflOrd.compare_self
    have hlt : compare (key a) (key b) = .lt := hless
    rw [hself] at hlt
    cases hlt
  · intro hdistinct
    exact (List.pairwise_map.mp hdistinct).isChain

/-- A list sorted by a key first ascends strictly by the key exactly when no key is
repeated. -/
theorem strictlyAscending_sortBy_iff {κ : Type} [Ord κ] [Std.TransOrd κ]
    [Std.LawfulEqOrd κ] {key : α → κ} {rest : α → α → Ordering} {xs : List α}
    [Std.TransCmp (compareLex (compareOn key) rest)] :
    strictlyAscending (compareOn key) (sortBy (compareLex (compareOn key) rest) xs) = true ↔
      (xs.map key).Nodup := by
  let sorted := sortBy (compareLex (compareOn key) rest) xs
  have hperm : (sorted.map key).Perm (xs.map key) := (sortBy_perm _ xs).map key
  rw [strictlyAscending_iff_pairwise, ← hperm.nodup_iff, List.Nodup, List.pairwise_map]
  constructor
  · intro hascending
    refine hascending.imp ?_
    intro a b hless hsame
    have hself : compare (key a) (key b) = .eq := hsame ▸ Std.ReflOrd.compare_self
    have hlt : compare (key a) (key b) = .lt := hless
    rw [hself] at hlt
    cases hlt
  · intro hdistinct
    have hsorted : sorted.Pairwise (NotAfter (compareLex (compareOn key) rest)) :=
      List.pairwise_insertionSort _ xs
    refine (hsorted.and hdistinct).imp ?_
    intro a b hboth
    obtain ⟨hordered, hne⟩ := hboth
    show compare (key a) (key b) = .lt
    cases hcompare : compare (key a) (key b) with
    | lt => rfl
    | eq => exact absurd (Std.LawfulEqOrd.eq_of_compare hcompare) hne
    | gt =>
        have hback : compare (key b) (key a) = .lt := Std.OrientedCmp.lt_of_gt hcompare
        exact absurd (by simp [compareLex, compareOn, hback]) hordered

/-! ## Splitting a sort -/

section Splitting

variable {cmp : α → α → Ordering} {before after : List α} {x : α}

private theorem orderedInsert_append_of_notAfter (h : ∀ b ∈ after, NotAfter cmp x b) :
    (before ++ after).orderedInsert (NotAfter cmp) x =
      before.orderedInsert (NotAfter cmp) x ++ after := by
  induction before with
  | nil =>
      cases after with
      | nil => rfl
      | cons b rest =>
          have hfirst := h b List.mem_cons_self
          simp only [List.nil_append, List.orderedInsert_cons, if_pos hfirst]
          rfl
  | cons a rest ih =>
      rw [List.cons_append, List.orderedInsert_cons, List.orderedInsert_cons]
      split
      · rfl
      · rw [ih, List.cons_append]

private theorem orderedInsert_append_of_after (h : ∀ a ∈ before, ¬ NotAfter cmp x a) :
    (before ++ after).orderedInsert (NotAfter cmp) x =
      before ++ after.orderedInsert (NotAfter cmp) x := by
  induction before with
  | nil => rfl
  | cons a rest ih =>
      have hfirst := h a List.mem_cons_self
      rw [List.cons_append, List.orderedInsert_cons, if_neg hfirst,
        ih fun b hmem => h b (List.mem_cons_of_mem _ hmem), List.cons_append]

/-- When everything selected stands below everything else, the two parts are sorted
apart. -/
theorem sortBy_split [Std.OrientedCmp cmp] (selected : α → Bool) {xs : List α}
    (h : ∀ a ∈ xs, ∀ b ∈ xs, selected a = true → selected b = false → cmp a b = .lt) :
    sortBy cmp xs =
      sortBy cmp (xs.filter selected) ++ sortBy cmp (xs.filter fun x => !selected x) := by
  induction xs with
  | nil => rfl
  | cons x rest ih =>
      have hrest := ih fun a ha b hb =>
        h a (List.mem_cons_of_mem _ ha) b (List.mem_cons_of_mem _ hb)
      have hsort : sortBy cmp (x :: rest) =
          (sortBy cmp rest).orderedInsert (NotAfter cmp) x := rfl
      rw [hsort, hrest]
      cases hselected : selected x with
      | true =>
          rw [List.filter_cons_of_pos hselected, List.filter_cons_of_neg (by simp [hselected])]
          refine orderedInsert_append_of_notAfter fun b hmem hless => ?_
          obtain ⟨hb, hunselected⟩ := List.mem_filter.mp (mem_sortBy.mp hmem)
          have hbelow := h x List.mem_cons_self b (List.mem_cons_of_mem _ hb) hselected
            (by simpa using hunselected)
          rw [Std.OrientedCmp.gt_of_lt hbelow] at hless
          cases hless
      | false =>
          rw [List.filter_cons_of_neg (by simp [hselected]),
            List.filter_cons_of_pos (by simp [hselected])]
          refine orderedInsert_append_of_after fun a hmem hnot => hnot ?_
          obtain ⟨ha, hchosen⟩ := List.mem_filter.mp (mem_sortBy.mp hmem)
          exact h a (List.mem_cons_of_mem _ ha) x List.mem_cons_self hchosen hselected

/-- When the comparison respects a rank, what is below, at and above a rank is sorted
apart. -/
theorem sortBy_split_at [Std.OrientedCmp cmp] (rank : α → Nat) (pivot : Nat) {xs : List α}
    (h : ∀ a ∈ xs, ∀ b ∈ xs, rank a < rank b → cmp a b = .lt) :
    sortBy cmp xs = sortBy cmp (xs.filter (rank · < pivot)) ++
      (sortBy cmp (xs.filter (rank · = pivot)) ++ sortBy cmp (xs.filter (pivot < rank ·))) := by
  have hat : (xs.filter fun x => !decide (rank x < pivot)).filter (rank · = pivot) =
      xs.filter (rank · = pivot) := by
    rw [List.filter_filter]
    refine List.filter_congr fun x _ => ?_
    by_cases hrank : rank x = pivot
    · simp [hrank]
    · simp [hrank]
  have habove : ((xs.filter fun x => !decide (rank x < pivot)).filter
      fun x => !decide (rank x = pivot)) = xs.filter (pivot < rank ·) := by
    rw [List.filter_filter]
    refine List.filter_congr fun x _ => ?_
    by_cases hrank : pivot < rank x
    · simp [hrank, Nat.not_lt.mpr hrank.le, hrank.ne']
    · rcases Nat.lt_or_eq_of_le (Nat.not_lt.mp hrank) with hbelow | heq
      · simp [hrank, hbelow]
      · simp [heq]
  rw [sortBy_split (fun x => decide (rank x < pivot)),
    @sortBy_split _ cmp _ (fun x => decide (rank x = pivot))
      (xs.filter fun x => !decide (rank x < pivot)), hat, habove]
  · intro a ha b hb hequal hother
    simp only [List.mem_filter, Bool.not_eq_true', decide_eq_false_iff_not] at ha hb hother
    have hrank : rank a = pivot := of_decide_eq_true hequal
    exact h a ha.1 b hb.1 (by omega)
  · intro a ha b hb hless hnot
    have hbelow : rank a < pivot := of_decide_eq_true hless
    have habove : ¬ rank b < pivot := of_decide_eq_false hnot
    exact h a ha b hb (by omega)

end Splitting

/-! ## The first of each key -/

section FirstOfEach

variable {κ : Type} [DecidableEq κ] {key : α → κ} {xs ys : List α} {wanted : κ}

/-- Dropping repeated keys finds under a key what the list finds. -/
theorem find?_destutter : (xs.destutter fun a b => key a ≠ key b).find? (key · == wanted) =
    xs.find? (key · == wanted) := by
  have hdestutter : ∀ (rest : List α) (x : α),
      (rest.destutter' (fun a b => key a ≠ key b) x).find? (key · == wanted) =
        (x :: rest).find? (key · == wanted) := by
    intro rest
    induction rest with
    | nil => intro x; rfl
    | cons next rest ih =>
        intro x
        rw [List.destutter'_cons]
        split
        · rw [List.find?_cons, ih, List.find?_cons (a := x)]
        · next hsame =>
            rw [ih]
            have hkeys : key x = key next := not_not.mp hsame
            simp only [List.find?_cons, hkeys]
            cases key next == wanted <;> rfl
  cases xs with
  | nil => rfl
  | cons x rest => exact hdestutter rest x

variable [Ord κ]

/-- The first element of each key, in the order of the keys. -/
def firstOfEach (key : α → κ) (xs : List α) : List α :=
  (sortBy (compareOn key) xs).destutter fun a b => key a ≠ key b

theorem mem_of_mem_firstOfEach {x : α} (h : x ∈ firstOfEach key xs) : x ∈ xs :=
  mem_sortBy.mp ((List.destutter_sublist _ _).subset h)

variable [Std.LawfulEqOrd κ]

/-- A stable sort by a key finds under a key what the list finds. -/
theorem find?_sortBy : (sortBy (compareOn key) xs).find? (key · == wanted) =
    xs.find? (key · == wanted) := by
  have halike : ∀ a b, (key a == wanted) = true → (key b == wanted) = true →
      compareOn key a b ≠ .lt := by
    intro a b ha hb hless
    have hself : compare wanted wanted = .eq := Std.ReflOrd.compare_self
    rw [compareOn, beq_iff_eq.mp ha, beq_iff_eq.mp hb, hself] at hless
    cases hless
  rw [← List.head?_filter, ← List.head?_filter, filter_sortBy halike]

theorem find?_firstOfEach : (firstOfEach key xs).find? (key · == wanted) =
    xs.find? (key · == wanted) := by
  unfold firstOfEach
  rw [find?_destutter, find?_sortBy]

variable [Std.TransOrd κ]

/-- Its keys are strictly ascending. -/
theorem firstOfEach_ascending :
    (firstOfEach key xs).Pairwise fun a b => compare (key a) (key b) = .lt := by
  have hascending : strictlyAscending (compareOn key) (firstOfEach key xs) = true :=
    strictlyAscending_destutter (fun a b hne heq => hne (Std.LawfulEqOrd.eq_of_compare heq)) xs
  exact @strictlyAscending_iff_pairwise _ (compareOn key) _ _ |>.mp hascending

theorem nodup_map_firstOfEach : ((firstOfEach key xs).map key).Nodup := by
  rw [List.Nodup, List.pairwise_map]
  refine firstOfEach_ascending.imp ?_
  intro a b hless hsame
  rw [hsame, Std.ReflOrd.compare_self] at hless
  cases hless

omit [Std.TransOrd κ] [Std.LawfulEqOrd κ] in
/-- A map that keeps the keys carries the first of each key to the first of each key. -/
theorem map_firstOfEach {β : Type} {f : α → β} {image : β → κ} (h : ∀ a, image (f a) = key a)
    (xs : List α) : (firstOfEach key xs).map f = firstOfEach image (xs.map f) := by
  unfold firstOfEach
  have hsort : (sortBy (compareOn key) xs).map f = sortBy (compareOn image) (xs.map f) :=
    map_sortBy (fun a b => by simp only [compareOn, h]) xs
  rw [← hsort]
  apply List.map_destutter
  intro a _ b _
  rw [h, h]

/-- Two arrangements of the same elements have the same keys. -/
theorem map_key_firstOfEach_of_perm (h : xs.Perm ys) :
    (firstOfEach key xs).map key = (firstOfEach key ys).map key := by
  have hmem : ∀ (zs : List α) (wanted : κ), wanted ∈ (firstOfEach key zs).map key ↔
      wanted ∈ zs.map key := by
    intro zs wanted
    constructor
    · intro hmem
      obtain ⟨x, hx, rfl⟩ := List.mem_map.mp hmem
      exact List.mem_map_of_mem (mem_of_mem_firstOfEach hx)
    · intro hmem
      obtain ⟨x, hx, rfl⟩ := List.mem_map.mp hmem
      have hsome : (zs.find? (key · == key x)).isSome = true :=
        List.find?_isSome.mpr ⟨x, hx, beq_self_eq_true _⟩
      rw [← find?_firstOfEach] at hsome
      obtain ⟨y, hy⟩ := Option.isSome_iff_exists.mp hsome
      have hkey : (key y == key x) = true := List.find?_some (p := fun y => key y == key x) hy
      exact List.mem_map.mpr ⟨y, List.mem_of_find?_eq_some hy, beq_iff_eq.mp hkey⟩
  have hsorted : ∀ zs : List α, ((firstOfEach key zs).map key).Pairwise
      fun a b => compare a b = .lt :=
    fun zs => List.pairwise_map.mpr firstOfEach_ascending
  refine @ascending_eq_of_mem_iff _ compare _ _ _ (hsorted xs) (hsorted ys) fun wanted => ?_
  rw [hmem, hmem]
  exact (h.map key).mem_iff

omit [DecidableEq κ] [Ord κ] [Std.TransOrd κ] [Std.LawfulEqOrd κ] in
/-- Lists of the same keys have the same values when a key fixes the value. -/
theorem map_eq_of_map_key_eq {β : Type} {value : α → β} (hkeys : xs.map key = ys.map key)
    (h : ∀ x ∈ xs, ∀ y ∈ ys, key x = key y → value x = value y) :
    xs.map value = ys.map value := by
  induction xs generalizing ys with
  | nil =>
      rw [List.map_nil, eq_comm, List.map_eq_nil_iff] at hkeys
      rw [hkeys]
  | cons x rest ih =>
      cases ys with
      | nil => cases hkeys
      | cons y later =>
          rw [List.map_cons, List.map_cons, List.cons.injEq] at hkeys
          have hrest := ih hkeys.2 fun x hx y hy =>
            h x (List.mem_cons_of_mem _ hx) y (List.mem_cons_of_mem _ hy)
          rw [List.map_cons, List.map_cons, hrest,
            h x List.mem_cons_self y List.mem_cons_self hkeys.1]

omit [DecidableEq κ] in
/-- In a sorted list whose neighbours of one key agree, all elements of one key agree. -/
theorem agree_of_neighbours {β : Type} {value : α → β}
    (h : (sortBy (compareOn key) xs).IsChain fun a b => key a = key b → value a = value b) :
    ∀ a ∈ xs, ∀ b ∈ xs, key a = key b → value a = value b := by
  let related (a b : α) : Prop :=
    NotAfter (compareOn key) a b ∧ (key a = key b → value a = value b)
  have hsorted : (sortBy (compareOn key) xs).Pairwise (NotAfter (compareOn key)) :=
    List.pairwise_insertionSort _ xs
  have htrans : IsTrans α related := ⟨fun a b c hab hbc => by
    refine ⟨IsTrans.trans a b c hab.1 hbc.1, fun hac => ?_⟩
    -- What stands between two elements of one key has that key.
    have hb : key b = key a := by
      rcases hcompare : compare (key b) (key a) with _ | _ | _
      · exact absurd hcompare hab.1
      · exact Std.LawfulEqOrd.eq_of_compare hcompare
      · have hbefore : compare (key c) (key b) = .lt := by
          rw [← hac]
          exact Std.OrientedCmp.lt_of_gt hcompare
        exact absurd hbefore hbc.1
    exact (hab.2 hb.symm).trans (hbc.2 (hb.trans hac))⟩
  have hchain : (sortBy (compareOn key) xs).IsChain related := by
    have hboth := hsorted.isChain
    rw [List.isChain_iff_getElem] at hboth h ⊢
    exact fun i hi => ⟨hboth i hi, h i hi⟩
  have hpairs := List.isChain_iff_pairwise.mp hchain
  have hall : ∀ a ∈ sortBy (compareOn key) xs, ∀ b ∈ sortBy (compareOn key) xs,
      key a = key b → value a = value b := by
    have hsymmetric : Std.Symm fun a b => key a = key b → value a = value b :=
      ⟨fun a b hsame hkeys => (hsame hkeys.symm).symm⟩
    exact (hpairs.imp And.right).forall_of_forall fun a _ _ => rfl
  exact fun a ha b hb => hall a (mem_sortBy.mpr ha) b (mem_sortBy.mpr hb)

end FirstOfEach

section Lookup

variable {κ : Type} [Ord κ] [DecidableEq κ]

/-- The first element whose key is not below the wanted one, accepted when its
key is the wanted one. -/
def findByKey (key : α → κ) (values : List α) (wanted : κ) : Option α :=
  (values.find? fun value => compare (key value) wanted != .lt).filter
    fun value => key value = wanted

variable [Std.LawfulEqOrd κ]

/-- On ascending keys the search finds the first element that has the wanted key. -/
theorem findByKey_eq_find? {key : α → κ} {values : List α} {wanted : κ}
    (hsorted : values.Pairwise fun a b => compare (key a) (key b) ≠ .gt) :
    findByKey key values wanted = values.find? fun value => key value = wanted := by
  unfold findByKey
  induction values with
  | nil => rfl
  | cons first rest ih =>
      obtain ⟨hfirst, hrest⟩ := List.pairwise_cons.mp hsorted
      cases hcompare : compare (key first) wanted with
      | lt =>
          have hother : key first ≠ wanted := by
            intro hsame
            have hself : compare wanted wanted = .eq := Std.ReflCmp.compare_self
            rw [hsame, hself] at hcompare
            cases hcompare
          rw [List.find?_cons_of_neg (by simp [hcompare]), ih hrest,
            List.find?_cons_of_neg (by simpa using hother)]
      | eq =>
          have hsame := Std.LawfulEqOrd.eq_of_compare hcompare
          rw [List.find?_cons_of_pos (by simp [hcompare]),
            List.find?_cons_of_pos (by simpa using hsame), Option.filter_some, if_pos (by simpa)]
      | gt =>
          have hother : key first ≠ wanted := by
            intro hsame
            have hself : compare wanted wanted = .eq := Std.ReflCmp.compare_self
            rw [hsame, hself] at hcompare
            cases hcompare
          -- Everything that follows is above the wanted key as well.
          have hnone : ∀ later ∈ rest, key later ≠ wanted := by
            intro later hmem hsame
            exact hfirst later hmem (hsame ▸ hcompare)
          rw [List.find?_cons_of_pos (by simp [hcompare]), Option.filter_some,
            if_neg (by simpa using hother), List.find?_cons_of_neg (by simpa using hother)]
          exact (List.find?_eq_none.mpr (by simpa using hnone)).symm

/-- What a search finds stands before every other element that it would accept. -/
theorem before_of_find? {values : List α} {accepts : α → Bool} {before : α → α → Prop}
    {found : α} (hordered : values.Pairwise before) (hfound : values.find? accepts = some found) :
    ∀ other ∈ values, accepts other = true → other = found ∨ before found other := by
  induction values with
  | nil => cases hfound
  | cons first rest ih =>
      obtain ⟨hfirst, hrest⟩ := List.pairwise_cons.mp hordered
      intro other hmem haccepted
      by_cases hpasses : accepts first = true
      · rw [List.find?_cons_of_pos hpasses] at hfound
        have hsame := Option.some.inj hfound
        subst hsame
        exact (List.mem_cons.mp hmem).imp_right (hfirst other)
      · rw [List.find?_cons_of_neg hpasses] at hfound
        have hlater : other ∈ rest := by
          rcases List.mem_cons.mp hmem with rfl | hlater
          · exact absurd haccepted hpasses
          · exact hlater
        exact ih hrest hfound other hlater haccepted

/-- On strictly ascending keys the search finds exactly the element that has the
wanted key. -/
theorem findByKey_eq_some_iff {key : α → κ} {values : List α} {wanted : κ} {value : α}
    (hsorted : values.Pairwise fun a b => compare (key a) (key b) = .lt) :
    findByKey key values wanted = some value ↔ value ∈ values ∧ key value = wanted := by
  have hordered : values.Pairwise fun a b => compare (key a) (key b) ≠ .gt := by
    apply hsorted.imp
    intro a b hless
    rw [hless]
    decide
  rw [findByKey_eq_find? hordered]
  constructor
  · intro hfound
    exact ⟨List.mem_of_find?_eq_some hfound, by simpa using List.find?_some hfound⟩
  · rintro ⟨hmem, rfl⟩
    cases hfound : values.find? fun other => key other = key value with
    | none =>
        have hother := List.find?_eq_none.mp hfound value hmem
        simp at hother
    | some found =>
        have hkey : key found = key value := by simpa using List.find?_some hfound
        rcases before_of_find? hsorted hfound value hmem (by simp) with rfl | hless
        · rfl
        · have hself : compare (key value) (key value) = .eq := Std.ReflCmp.compare_self
          rw [hkey, hself] at hless
          cases hless

end Lookup

end ConstraintRouting.Verified.SortedLists
