/-!
# Sequenced checks

Validators are `Except` programs that return nothing on success.  These rules
turn "the validator accepted" into the conjunction of its checks.
-/

namespace ConstraintRouting.Verified.Checks

variable {ε α β : Type}

/-- Fail with `error` when the condition holds. -/
def failIf (condition : Bool) (error : ε) : Except ε Unit :=
  if condition then .error error else .ok ()

/-- The program succeeded. -/
def isOk : Except ε α → Bool
  | .ok _ => true
  | .error _ => false

@[simp] theorem isOk_ok (value : α) :
    isOk (.ok value : Except ε α) = true := rfl

@[simp] theorem isOk_error (error : ε) :
    isOk (.error error : Except ε α) = false := rfl

/-- A program succeeds exactly when it returns a value. -/
theorem isOk_iff {program : Except ε α} :
    isOk program = true ↔ ∃ value, program = .ok value := by
  cases program with
  | ok value => simp
  | error error => simp

theorem failIf_eq_ok {condition : Bool} {error : ε} :
    failIf condition error = .ok () ↔ condition = false := by
  unfold failIf
  split <;> simp_all

/-- A bind succeeds exactly when its first part yields a value on which the
second part succeeds. -/
theorem bind_eq_ok {first : Except ε α} {next : α → Except ε β} {value : β} :
    first >>= next = .ok value ↔ ∃ a, first = .ok a ∧ next a = .ok value := by
  cases first with
  | ok a => simp [bind, Except.bind]
  | error error => simp [bind, Except.bind]

/-- Two checks in sequence pass exactly when both pass. -/
theorem seq_eq_ok {first : Except ε Unit} {second : Except ε α} {value : α} :
    (first >>= fun _ => second) = .ok value ↔
      first = .ok () ∧ second = .ok value := by
  rw [bind_eq_ok]
  exact ⟨fun ⟨_, hfirst, hsecond⟩ => ⟨hfirst, hsecond⟩,
    fun ⟨hfirst, hsecond⟩ => ⟨(), hfirst, hsecond⟩⟩

/-- A loop of checks passes exactly when each element passes. -/
theorem forM_eq_ok {check : α → Except ε Unit} {xs : List α} :
    xs.forM check = .ok () ↔ ∀ x ∈ xs, check x = .ok () := by
  induction xs with
  | nil => simp [List.forM, pure, Except.pure]
  | cons x xs ih =>
      have hcons : (x :: xs).forM check =
          (check x >>= fun _ => xs.forM check) := rfl
      rw [hcons, seq_eq_ok, ih]
      simp

/-- A loop returns its list unchanged exactly when each element is returned unchanged. -/
theorem mapM_eq_ok_self {program : α → Except ε α} {xs : List α} :
    xs.mapM program = .ok xs ↔ ∀ x ∈ xs, program x = .ok x := by
  induction xs with
  | nil => simp [pure, Except.pure]
  | cons x xs ih =>
      rw [List.mapM_cons, List.forall_mem_cons, ← ih]
      simp only [bind_eq_ok, pure, Except.pure, Except.ok.injEq, List.cons.injEq]
      constructor
      · rintro ⟨first, hfirst, rest, hrest, rfl, rfl⟩
        exact ⟨hfirst, hrest⟩
      · rintro ⟨hfirst, hrest⟩
        exact ⟨x, hfirst, xs, hrest, rfl, rfl⟩

end ConstraintRouting.Verified.Checks
