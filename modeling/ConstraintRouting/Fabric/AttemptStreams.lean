import ConstraintRouting.Fabric.Worker
import ConstraintRouting.Verified.Mixers

/-!
# Identities that a process draws

A client mixes its boot with a counter into the attempt of each request, and a process mixes
its salt with a counter into the boots of its clients.  Both mixings permute the machine
words, so among all the counters there is a single pair that draws one identity twice.
-/

namespace ConstraintRouting.Fabric

open Verified.Mixers

/-- The odd constant that spreads a counter has an inverse. -/
private theorem spread_injective :
    Function.Injective fun counter : UInt64 => counter * 0x9e3779b97f4a7c15 :=
  mul_injective (d := 0xf1de83e19937733d) (by decide)

theorem mix_injective : Function.Injective mix := by
  have hadd : Function.Injective fun value : UInt64 => value + 0x9e3779b97f4a7c15 := by
    intro x y h
    exact (UInt64.add_left_inj _).mp h
  have hfirst := (mul_injective (c := 0xbf58476d1ce4e5b9) (d := 0x96de1b173f119089) (by decide)).comp
    (xorShift_injective (k := 30) (by decide))
  have hsecond := (mul_injective (c := 0x94d049bb133111eb) (d := 0x319642b2d24d8ec3) (by decide)).comp
    (xorShift_injective (k := 27) (by decide))
  have hlast := xorShift_injective (k := 31) (by decide)
  exact hlast.comp (hsecond.comp (hfirst.comp hadd))

/-- What a client draws its attempts from. -/
private theorem mixed_bijective (boot : WorkerBootId) :
    Function.Bijective fun counter : UInt64 =>
      mix (boot.value ^^^ (counter * 0x9e3779b97f4a7c15)) :=
  bijective_of_injective
    (mix_injective.comp ((xor_left_injective boot.value).comp spread_injective))

/-- What a process draws its boots from. -/
private theorem salted_bijective (processSalt : UInt64) :
    Function.Bijective fun sequence : UInt64 =>
      processSalt ^^^ (sequence * 0x9e3779b97f4a7c15) :=
  bijective_of_injective ((xor_left_injective processSalt).comp spread_injective)

/-! ## Requests of a client -/

namespace WorkerClient

/-- The request that a client makes after so many calls. -/
def requestAfter (client : WorkerClient) (calls : Nat) (message : MessageId)
    (payload : List UInt8) : Frame :=
  (called^[calls] client).request message payload

variable {client : WorkerClient}

theorem called_iterate (hsession : client.session.isValid = true) (calls : Nat) :
    called^[calls] client =
      { client with attemptCounter := client.attemptCounter + UInt64.ofNat calls } := by
  induction calls with
  | zero =>
      show client = { client with attemptCounter := client.attemptCounter + 0 }
      rw [UInt64.add_zero]
  | succ calls ih =>
      rw [Function.iterate_succ_apply', ih]
      unfold called
      rw [if_pos hsession]
      dsimp only
      rw [UInt64.add_assoc, ← UInt64.ofNat_one, ← UInt64.ofNat_add]

theorem attemptAt_eq_iff {boot : WorkerBootId} {x y : UInt64} :
    attemptAt boot x = attemptAt boot y ↔
      nonzero 0 1 (mix (boot.value ^^^ (x * 0x9e3779b97f4a7c15))) =
        nonzero 0 1 (mix (boot.value ^^^ (y * 0x9e3779b97f4a7c15))) :=
  StrongId.ext_iff

theorem attemptAt_isValid (boot : WorkerBootId) (counter : UInt64) :
    (attemptAt boot counter).isValid = true :=
  bne_iff_ne.mpr (nonzero_ne_zero (by decide) _)

/-- A context is drawn from the same stream as a request: it takes the attempt that the next
request would have had, and leaves the client as that request would have. -/
theorem nextContext_eq_request (hsession : client.session.isValid = true)
    (message : MessageId) (payload : List UInt8) :
    client.nextContext.1 = client.called ∧
      client.nextContext.2.attempt = (client.request message payload).header.attempt ∧
      client.nextContext.2.request = (client.request message payload).header.request := by
  unfold called
  rw [if_pos hsession]
  exact ⟨rfl, rfl, rfl⟩

/-- Over a whole turn of its counter a client repeats a single attempt, once, and none is the
unset one. -/
theorem attempts_repeat_once (hsession : client.session.isValid = true) :
    (∀ calls message payload,
      (client.requestAfter calls message payload).header.attempt.isValid = true) ∧
    ∃ a b : Nat, a < b ∧ b < 2 ^ 64 ∧ ∀ i j, i < 2 ^ 64 → j < 2 ^ 64 →
      ∀ message payload message' payload',
        ((client.requestAfter i message payload).header.attempt =
            (client.requestAfter j message' payload').header.attempt ↔
          i = j ∨ (i = a ∧ j = b) ∨ (i = b ∧ j = a)) := by
  have hattempt : ∀ calls message payload,
      (client.requestAfter calls message payload).header.attempt =
        attemptAt client.boot (client.attemptCounter + 1 + UInt64.ofNat calls) := by
    intro calls message payload
    unfold requestAfter
    rw [called_iterate hsession]
    show attemptAt client.boot (client.attemptCounter + UInt64.ofNat calls + 1) = _
    rw [UInt64.add_assoc, UInt64.add_comm (UInt64.ofNat calls), ← UInt64.add_assoc]
  constructor
  · intro calls message payload
    rw [hattempt]
    exact attemptAt_isValid client.boot _
  · obtain ⟨a, b, hlt, hb, hrepeats⟩ :=
      exists_unique_repetition (mixed_bijective client.boot) (client.attemptCounter + 1)
    refine ⟨a, b, hlt, hb, fun i j hi hj message payload message' payload' => ?_⟩
    rw [hattempt, hattempt, attemptAt_eq_iff]
    exact hrepeats i j hi hj

/-- A connected client with the boot 4242. -/
theorem attempts_repeat_once_sample :
    ∃ a b : Nat, a < b ∧ b < 2 ^ 64 ∧ ∀ i j, i < 2 ^ 64 → j < 2 ^ 64 →
      ∀ message payload message' payload',
        ((({ boot := ⟨4242⟩, session := ⟨1⟩ } : WorkerClient).requestAfter i message
            payload).header.attempt =
          (({ boot := ⟨4242⟩, session := ⟨1⟩ } : WorkerClient).requestAfter j message'
            payload').header.attempt ↔
          i = j ∨ (i = a ∧ j = b) ∨ (i = b ∧ j = a)) :=
  (@attempts_repeat_once { boot := ⟨4242⟩, session := ⟨1⟩ } (by decide)).2

end WorkerClient

/-! ## Boots of a process -/

/-- The number of boots drawn, after so many draws. -/
def bootsDrawn (processSalt : UInt64) : Nat → UInt64
  | 0 => 0
  | draws + 1 => (AuthorityRegistry.freshWorkerBoot processSalt (bootsDrawn processSalt draws)).1

/-- The boot that a process draws after so many draws. -/
def bootAfter (processSalt : UInt64) (draws : Nat) : WorkerBootId :=
  (AuthorityRegistry.freshWorkerBoot processSalt (bootsDrawn processSalt draws)).2

theorem bootsDrawn_eq (processSalt : UInt64) (draws : Nat) :
    bootsDrawn processSalt draws = UInt64.ofNat draws := by
  induction draws with
  | zero => rfl
  | succ draws ih =>
      show bootsDrawn processSalt draws + 1 = _
      rw [ih, ← UInt64.ofNat_one, ← UInt64.ofNat_add]

end ConstraintRouting.Fabric
