import ConstraintRouting.Verified.StepMachine

/-!
# Leases that are fenced by burning their tokens

An owner acts through a token that it holds.  A token that is burnt stays burnt and holds
nothing.  When a token is lost only by being burnt, or by an explicit release, then an owner
that went on with another token never comes back to the first one, unless it was released.
-/

namespace ConstraintRouting.Verified.Leases

open StepMachine

variable {owner token : Type}

/-- Which tokens an owner holds, and which tokens are burnt. -/
structure Ledger (owner token : Type) where
  holds : owner → token → Prop
  burnt : token → Prop

namespace Ledger

/-- An owner holds one token at most, and no burnt one. -/
structure Sound (ledger : Ledger owner token) : Prop where
  single : ∀ {who one other}, ledger.holds who one → ledger.holds who other → one = other
  unburnt : ∀ {who one}, ledger.holds who one → ¬ ledger.burnt one

/-- Burnt tokens stay burnt, and a token that is held is kept, burnt, or released. -/
structure Advances (released : owner → token → Prop) (before after : Ledger owner token) :
    Prop where
  burnt : ∀ {one}, before.burnt one → after.burnt one
  kept : ∀ {who one}, before.holds who one →
    after.holds who one ∨ after.burnt one ∨ released who one

end Ledger

open Ledger

section Runs

variable {σ ι ο : Type} {step : σ → ι → Option (σ × ο)} {ledger : σ → Ledger owner token}
  {released : Event σ ι ο → owner → token → Prop} {start middle last : σ}
  {events : List (Event σ ι ο)} {who : owner} {one other : token}

/-- A token that no event of a run releases is held in the end, or burnt. -/
theorem held_or_burnt_of_run (h : Run step start events last)
    (hadvances : ∀ event ∈ events,
      Advances (released event) (ledger event.pre) (ledger event.post))
    (hkept : ∀ event ∈ events, ¬ released event who one)
    (hheld : (ledger start).holds who one) :
    (ledger last).holds who one ∨ (ledger last).burnt one := by
  have hinv : (fun state => (ledger state).holds who one ∨ (ledger state).burnt one) last := by
    apply h.invariant (.inl hheld)
    intro event hmem _ hbefore
    have hevent := hadvances event hmem
    rcases hbefore with hbefore | hbefore
    · rcases hevent.kept hbefore with hafter | hafter | hreleased
      · exact .inl hafter
      · exact .inr hafter
      · exact absurd hreleased (hkept event hmem)
    · exact .inr (hevent.burnt hbefore)
  exact hinv

/-- An owner that went on with another token burnt the first one, unless it was released. -/
theorem burnt_of_superseded (h : Run step start events last)
    (hadvances : ∀ event ∈ events,
      Advances (released event) (ledger event.pre) (ledger event.post))
    (hsound : (ledger last).Sound) (hkept : ∀ event ∈ events, ¬ released event who one)
    (hheld : (ledger start).holds who one) (hnow : (ledger last).holds who other)
    (hne : one ≠ other) : (ledger last).burnt one := by
  rcases held_or_burnt_of_run h hadvances hkept hheld with hstill | hburnt
  · exact absurd (hsound.single hstill hnow) hne
  · exact hburnt

end Runs

end ConstraintRouting.Verified.Leases
