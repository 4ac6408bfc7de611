import TwoTier.Proofs.Fetch.Stages

/-!
# Tasks that ask a cache

Tasks do whatever they like, but turn to the guard of a cache that fills itself only through this
cache, with fetches that go by plans (`Filler.Asks`). A step of such a call starts no other fill of
the cache than one that has yet to begin its fetch (`Filler.asks_exec`). The operations of the
tiers are such calls, and so is a call that fills (`Filler.opens_getOrSet`).
-/

set_option autoImplicit false
set_option relaxedAutoImplicit false

namespace TwoTier

open Scenario

namespace Filler

/-- The calls that turn to the guard of a cache only through the cache, with fetches that go by
plans and for less than 2^55 seconds. Otherwise they may do whatever they like. -/
def Asks (c : Filler) {α : Type} : Call α → Prop
  | .done _ => True
  | .crash => True
  | .read k => ∀ h, c.Asks (k h)
  | .write _ k => c.Asks k
  | .pause k => c.Asks k
  | .sleep _ k => c.Asks k
  | .pop _ _ _ _ k => ∀ a, c.Asks (k a)
  | .join g key fill k =>
    (g = c.guard → ∃ ttl plan mark, ttl < Clock.secs (2 ^ 55) ∧
      fill = c.fill key ttl (Plan.marked plan mark)) ∧
    (g ≠ c.guard → c.Asks fill) ∧ ∀ a, c.Asks (k a)
  | .await _ k => ∀ a, c.Asks (k a)
  | .acquire _ k => c.Asks k
  | .release _ k => c.Asks k
  | .loopEnd _ _ k => ∀ b, c.Asks (k b)

/-- A fill is at a stage where it is one of the cache. -/
structure Orderly (c : Filler) (f : Fill) : Prop where
  own : f.guard = c.guard → ∃ plan, c.Stage f.key plan f.code
  other : f.guard ≠ c.guard → c.Asks f.code

variable {c : Filler} {α : Type}

theorem asks_bind {β : Type} {code : Call α} {f : α → Call β} (hcode : c.Asks code)
    (hf : ∀ a, c.Asks (f a)) : c.Asks (code.bind f) := by
  induction code with
  | done a => exact hf a
  | crash => trivial
  | read k ih => exact fun h ↦ ih h (hcode h) hf
  | write t k ih => exact ih hcode hf
  | pause k ih => exact ih hcode hf
  | sleep wake k ih => exact ih hcode hf
  | pop s keys deadline seen k ih => exact fun a ↦ ih a (hcode a) hf
  | join g key fill k _ ih => exact ⟨hcode.1, hcode.2.1, fun a ↦ ih a (hcode.2.2 a) hf⟩
  | await i k ih => exact fun a ↦ ih a (hcode a) hf
  | acquire m k ih => exact ih hcode hf
  | release m k ih => exact ih hcode hf
  | loopEnd r deadline k ih => exact fun b ↦ ih b (hcode b) hf

theorem carried_asks (me : Nat) :
    Call.Carried me fun (_ : Heap) (code : Call α) ↦ c.Asks code where
  read hcode := hcode _
  write hcode := hcode
  slept hcode := hcode
  tried _ _ hcode := hcode
  popped a hcode := hcode a
  enqueued hcode := hcode
  acquired hcode := hcode
  released hcode := hcode
  looped b hcode := hcode b

/-- What a call that asks goes on with when its wait is over. -/
theorem asks_resume {ρ : Type} (w : World ρ) {code : Call α} (hcode : c.Asks code) :
    c.Asks (w.resume code) := by
  cases code with
  | await i k =>
    unfold World.resume
    dsimp only
    split
    · exact hcode _
    · exact hcode
  | _ => exact hcode

/-- A step of a call that asks starts orderly fills. -/
theorem asks_exec (me : Nat) (h : Heap) {code : Call α} (hcode : c.Asks code) :
    c.Asks (code.exec me h []).rest ∧ ∀ f ∈ (code.exec me h []).fills, c.Orderly f := by
  rw [Call.exec_eq_enter]
  have hhalted := (carried_asks me).halt (h := h) hcode
  generalize code.halt me h = halted at hhalted
  obtain ⟨h', code'⟩ := halted
  have hnone : ∀ f ∈ ([] : List Fill), c.Orderly f := fun f hf ↦ absurd hf List.not_mem_nil
  cases code' with
  | join g key fill k =>
    obtain ⟨hown, hother, hk⟩ := hhalted
    cases hi : (h'.guard g).inFlight[key]? with
    | some i =>
      simp only [Call.enter, hi]
      exact ⟨hk, hnone⟩
    | none =>
      simp only [Call.enter, hi]
      refine ⟨hk, fun f hf ↦ ?_⟩
      rw [List.mem_singleton.mp hf]
      refine ⟨fun hg ↦ ?_, fun hg ↦ hother hg⟩
      obtain ⟨ttl, plan, mark, httl, rfl⟩ := hown hg
      exact ⟨plan, .waiting httl mark⟩
  | _ => exact ⟨hhalted, hnone⟩

/-! ### Calls that ask -/

/-- What a task may do: it asks, and has not begun to wait for a fill. -/
structure Opens (c : Filler) (code : Call α) : Prop where
  unbegun : code.Unbegun
  asks : c.Asks code

theorem Opens.bind {β : Type} {code : Call α} {f : α → Call β} (hcode : c.Opens code)
    (hf : ∀ a, c.Opens (f a)) : c.Opens (code.bind f) :=
  ⟨hcode.unbegun.bind fun a ↦ (hf a).unbegun, asks_bind hcode.asks fun a ↦ (hf a).asks⟩

theorem opens_done (a : α) : c.Opens (.done a) := ⟨trivial, trivial⟩

theorem opens_crash : c.Opens (.crash : Call α) := ⟨trivial, trivial⟩

theorem opens_atomically (f : Heap → α × Tiers) : c.Opens (Call.atomically f) :=
  ⟨fun _ ↦ trivial, fun _ ↦ trivial⟩

theorem opens_onStore (s : Nat) (op : Nat → Store → Outcome α × Store) :
    c.Opens (Call.onStore s op) := by
  have hrest : ∀ o : Outcome α, c.Opens (Call.ofOutcome o) := by
    intro o
    cases o with
    | overflow => exact opens_crash
    | _ => exact opens_done _
  exact ⟨fun h ↦ (hrest (op h.now (h.tiers.store s)).1).unbegun,
    fun h ↦ (hrest (op h.now (h.tiers.store s)).1).asks⟩

theorem opens_whenOpen (l : LocalHandle) {code : Call (Answer α)} (hcode : c.Opens code) :
    c.Opens (l.whenOpen code) := by
  refine Opens.bind ⟨fun _ ↦ trivial, fun _ ↦ trivial⟩ fun closed ↦ ?_
  cases closed with
  | true => exact opens_done _
  | false => exact hcode

theorem opens_delay (span : Nat) : c.Opens (Call.delay span) := by
  unfold Call.delay
  split
  · exact opens_done _
  · exact ⟨fun _ ↦ trivial, fun _ ↦ trivial⟩

theorem opens_lookup (l : LocalHandle) (key : String) : c.Opens (l.lookup key) :=
  opens_atomically _

theorem opens_insert (l : LocalHandle) (key v : String) (ttl : Nat) :
    c.Opens (l.insert key v ttl) := by
  refine Opens.bind (opens_atomically _) fun r ↦ ?_
  cases r with
  | overflow => exact opens_crash
  | _ => exact opens_done _

theorem opens_discard {code : Call α} (hcode : c.Opens code) :
    c.Opens (Functor.discard code : Call Unit) :=
  Opens.bind hcode fun _ ↦ opens_done _

theorem opens_populate (d : Hybrid) (key v : String) (ttl : Nat) :
    c.Opens (d.populate key v ttl) :=
  opens_discard (opens_whenOpen _ (Opens.bind (opens_discard (opens_insert _ _ _ _))
    fun _ ↦ opens_done _))

/-- A look at the tiers of any such cache may be taken. -/
theorem opens_probe (d : Filler) (key : String) (ttl : Nat) : c.Opens (d.probe key ttl) := by
  cases d with
  | near l =>
    refine Opens.bind ⟨fun _ ↦ trivial, fun _ ↦ trivial⟩ fun closed ↦ ?_
    cases closed with
    | true => exact opens_done _
    | false =>
      refine Opens.bind (opens_lookup l key) fun r ↦ ?_
      cases r <;> exact opens_done _
  | far x =>
    refine Opens.bind (opens_onStore _ _) fun a ↦ ?_
    cases a with
    | ok v => exact opens_done _
    | error f => cases f <;> exact opens_done _
  | layered front x =>
    have hhit : c.Opens ((Hybrid.layered front x).localHit key) := by
      refine Opens.bind (opens_whenOpen _ (Opens.bind (opens_lookup _ _) fun r ↦ ?_)) fun a ↦ ?_
      · cases r <;> exact opens_done _
      · cases a <;> exact opens_done _
    refine Opens.bind hhit fun r ↦ ?_
    cases r with
    | some v => exact opens_done _
    | none =>
      refine Opens.bind (opens_onStore _ _) fun a ↦ ?_
      cases a with
      | ok v => exact Opens.bind (opens_populate _ _ _ _) fun _ ↦ opens_done _
      | error f => exact opens_done _

theorem opens_settle (d : Filler) (key : String) (ttl : Nat) (ending : Ending) :
    c.Opens (d.settle key ttl ending) := by
  cases ending with
  | value v =>
    refine Opens.bind ?_ fun _ ↦ opens_done _
    cases d with
    | near l => exact opens_discard (opens_insert _ _ _ _)
    | far x => exact opens_discard (opens_onStore _ _)
    | layered front x =>
      exact Opens.bind (opens_discard (opens_onStore _ _)) fun _ ↦ opens_populate _ _ _ _
  | error message => exact opens_done _
  | crash => exact opens_crash

theorem opens_fill (d : Filler) (key : String) (ttl : Nat) (plan : Plan) (mark : Nat) :
    c.Opens (d.fill key ttl (plan.marked mark)) := by
  rw [fill_eq_bind]
  refine Opens.bind ?_ fun r ↦ ?_
  · cases d with
    | layered front x => exact opens_lookup _ _
    | _ => exact opens_done _
  · cases r with
    | some v => exact opens_done _
    | none =>
      exact Opens.bind (opens_atomically _) fun _ ↦
        Opens.bind (opens_delay _) fun _ ↦ opens_settle _ _ _ _

/-- To ask for a key is to turn to the guard through the cache. -/
theorem opens_getOrSet {ttl : Nat} (httl : ttl < Clock.secs (2 ^ 55)) (key : String) (plan : Plan)
    (mark : Nat) : c.Opens (c.getOrSet key ttl (plan.marked mark)) := by
  have hjoin : c.Opens (Call.fillOnce c.guard key (c.fill key ttl (plan.marked mark))) :=
    ⟨⟨(opens_fill (c := c) c key ttl plan mark).unbegun, fun _ ↦ trivial⟩,
      fun _ ↦ ⟨ttl, plan, mark, httl, rfl⟩, fun hne ↦ absurd rfl hne, fun _ ↦ trivial⟩
  rw [getOrSet_eq_bind]
  refine Opens.bind (opens_probe c key ttl) fun r ↦ ?_
  cases r with
  | some a => exact opens_done a
  | none => exact hjoin

end Filler

end TwoTier
