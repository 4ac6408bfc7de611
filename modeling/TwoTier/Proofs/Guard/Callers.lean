import TwoTier.Proofs.Engine.Told
import TwoTier.Tier.Local

/-!
# Who turns to a guard

A guard runs what its callers bring. Where all calls that reach it bring fills of one kind
(`Call.Brings`), it has never run a fill of another kind (`Past.Leads.brings`), whatever else the
callers do, and whatever happens between their turns.
-/

set_option autoImplicit false
set_option relaxedAutoImplicit false

namespace TwoTier

namespace Call

/-- A call that brings to a guard fills of one kind only, and so do the fills that it starts. -/
def Brings (g : Nat) (F : String → Call (Answer String) → Prop) {α : Type} : Call α → Prop
  | done _ => True
  | crash => True
  | read k => ∀ h, (k h).Brings g F
  | write _ k => k.Brings g F
  | pause k => k.Brings g F
  | sleep _ k => k.Brings g F
  | pop _ _ _ _ k => ∀ a, (k a).Brings g F
  | join g' key fill k => (g' = g → F key fill) ∧ fill.Brings g F ∧ ∀ a, (k a).Brings g F
  | await _ k => ∀ a, (k a).Brings g F
  | acquire _ k => k.Brings g F
  | release _ k => k.Brings g F
  | loopEnd _ _ k => ∀ b, (k b).Brings g F

namespace Brings

variable {g : Nat} {F : String → Call (Answer String) → Prop} {α β : Type} {c : Call α}

theorem bind {f : α → Call β} (hc : c.Brings g F) (hf : ∀ a, (f a).Brings g F) :
    (c.bind f).Brings g F := by
  induction c with
  | done a => exact hf a
  | crash => trivial
  | read k ih => exact fun h ↦ ih h (hc h) hf
  | write t k ih => exact ih hc hf
  | pause k ih => exact ih hc hf
  | sleep wake k ih => exact ih hc hf
  | pop s keys deadline seen k ih => exact fun a ↦ ih a (hc a) hf
  | join g' key fill k _ ih => exact ⟨hc.1, hc.2.1, fun a ↦ ih a (hc.2.2 a) hf⟩
  | await i k ih => exact fun a ↦ ih a (hc a) hf
  | acquire m k ih => exact ih hc hf
  | release m k ih => exact ih hc hf
  | loopEnd r deadline k ih => exact fun b ↦ ih b (hc b) hf

theorem carried (me : Nat) : Carried me fun (_ : Heap) (c : Call α) ↦ c.Brings g F where
  read hc := hc _
  write hc := hc
  slept hc := hc
  tried _ _ hc := hc
  popped a hc := hc a
  enqueued hc := hc
  acquired hc := hc
  released hc := hc
  looped b hc := hc b

/-- A step of such a call leaves such a call, and the fills that it starts are of the kind. -/
theorem exec (hc : c.Brings g F) (me : Nat) (h : Heap) :
    (c.exec me h []).rest.Brings g F ∧ ∀ s ∈ (c.exec me h []).fills, s.code.Brings g F ∧
      (s.guard = g → ∃ fill, s = ⟨s.id, g, s.key, .pause fill, 0⟩ ∧ F s.key fill) := by
  rw [exec_eq_enter]
  have hhalted := (carried me).halt (h := h) hc
  generalize c.halt me h = halted at hhalted
  obtain ⟨h', c'⟩ := halted
  cases c' with
  | join g' key fill k =>
    obtain ⟨hkind, hfill, hk⟩ := hhalted
    cases hi : (h'.guard g').inFlight[key]? with
    | some i =>
      simp only [enter, hi]
      exact ⟨hk, fun s hs ↦ absurd hs List.not_mem_nil⟩
    | none =>
      simp only [enter, hi, List.nil_append]
      refine ⟨hk, fun s hs ↦ ?_⟩
      rw [List.mem_singleton.mp hs]
      exact ⟨hfill, fun hg ↦ ⟨fill, by rw [← hg], hkind hg⟩⟩
  | _ => exact ⟨hhalted, fun s hs ↦ absurd hs List.not_mem_nil⟩

variable {ρ : Type}

theorem resume (hc : c.Brings g F) (w : World ρ) : (w.resume c).Brings g F := by
  unfold World.resume
  split
  · exact hc
  · split
    · exact hc _
    · exact hc
  · exact hc

theorem after (hc : c.Brings g F) (me : Nat) (ws : List (World ρ)) :
    (c.after me ws).Brings g F := by
  induction ws generalizing c with
  | nil => exact hc
  | cons w ws ih => exact ih ((hc.resume w).exec me w.heap).1

end Brings

/-- A call that waits for no fill yet, and that brings to a guard fills of one kind only. -/
structure Comes (g : Nat) (F : String → Call (Answer String) → Prop) {α : Type} (c : Call α) :
    Prop where
  unbegun : c.Unbegun
  brings : c.Brings g F

namespace Comes

variable {g : Nat} {F : String → Call (Answer String) → Prop} {α β : Type} {c : Call α}

theorem bind {f : α → Call β} (hc : c.Comes g F) (hf : ∀ a, (f a).Comes g F) :
    (c.bind f).Comes g F :=
  ⟨hc.unbegun.bind fun a ↦ (hf a).unbegun, hc.brings.bind fun a ↦ (hf a).brings⟩

theorem done (a : α) : (Call.done a).Comes g F := ⟨trivial, trivial⟩

theorem crash : (Call.crash : Call α).Comes g F := ⟨trivial, trivial⟩

theorem read {k : Heap → Call α} (hk : ∀ h, (k h).Comes g F) : (Call.read k).Comes g F :=
  ⟨fun h ↦ (hk h).unbegun, fun h ↦ (hk h).brings⟩

theorem atomically (f : Heap → α × Tiers) : (Call.atomically f).Comes g F :=
  read fun _ ↦ ⟨trivial, trivial⟩

theorem look (f : Heap → α) : (Call.look f).Comes g F := read fun h ↦ done (f h)

theorem discard (hc : c.Comes g F) : (Functor.discard c : Call Unit).Comes g F :=
  hc.bind fun _ ↦ done _

theorem onStore (s : Nat) (op : Nat → Store → Outcome α × Store) :
    (Call.onStore s op).Comes g F := by
  refine read fun h ↦ ?_
  change (Call.write _ (ofOutcome (op h.now (h.tiers.store s)).1)).Comes g F
  cases (op h.now (h.tiers.store s)).1 <;> exact ⟨trivial, trivial⟩

theorem whenOpen (l : LocalHandle) {c : Call (Answer α)} (hc : c.Comes g F) :
    (l.whenOpen c).Comes g F := by
  refine (look _).bind fun closed ↦ ?_
  cases closed with
  | true => exact done _
  | false => exact hc

theorem lookup (l : LocalHandle) (key : String) : (l.lookup key).Comes g F := atomically _

theorem insert (l : LocalHandle) (key v : String) (ttl : Nat) : (l.insert key v ttl).Comes g F := by
  refine (atomically _).bind fun r ↦ ?_
  cases r with
  | overflow => exact crash
  | _ => exact done _

end Comes

end Call

namespace Past

variable {ρ : Type} {rules : Move ρ → Prop} {past : Past ρ} {w : World ρ} {g : Nat}
  {F : String → Call (Answer String) → Prop}

/-- Where all tasks bring fills of one kind to a guard, so do all fills, and what was started for
the guard is of this kind. -/
theorem Leads.brings (h : Leads rules past w)
    (hrules : ∀ held code, rules (.spawn held code) → code.Brings g F) :
    (∀ i code, past.made i = some code → code.Brings g F) ∧
      ∀ s ∈ past.started, s.code.Brings g F ∧
        (s.guard = g → ∃ fill, s = ⟨s.id, g, s.key, .pause fill, 0⟩ ∧ F s.key fill) := by
  induction h with
  | start =>
    exact ⟨fun i code hmade ↦ absurd hmade.symm (Option.some_ne_none code),
      fun s hs ↦ absurd hs List.not_mem_nil⟩
  | @move past w m hadmits hm hl ih =>
    obtain ⟨hmade, hstarted⟩ := ih
    refine ⟨fun i code hcode ↦ ?_, fun s hs ↦ ?_⟩
    · cases m with
      | spawn held code' =>
        rw [made] at hcode
        split_ifs at hcode
        · obtain rfl := Option.some.inj hcode
          exact hrules held _ hm
        · exact hmade i code hcode
      | _ => exact hmade i code hcode
    · rw [started_cons] at hs
      rcases List.mem_append.mp hs with hs | hs
      · cases m with
        | run th =>
          cases th with
          | task i =>
            cases hfind : w.tasks.find? fun t ↦ t.id = i with
            | none => simp only [World.starts, hfind, List.not_mem_nil] at hs
            | some t =>
              simp only [World.starts, hfind] at hs
              obtain ⟨code, hcode, hrest, -⟩ := hl.told.task t (World.mem_of_find? hfind).1
              rw [hrest] at hs
              exact ((((hmade _ _ hcode).after _ _).resume w).exec _ _).2 s hs
          | fill i =>
            cases hfind : w.fills.find? fun f ↦ f.id = i with
            | none => simp only [World.starts, hfind, List.not_mem_nil] at hs
            | some f =>
              simp only [World.starts, hfind] at hs
              obtain ⟨f', hf', -, -, -, hrest⟩ :=
                hl.exists_started (World.mem_fills_of_find? hfind).1
              rw [hrest] at hs
              exact ((((hstarted f' hf').1.after _ _).resume w).exec _ _).2 s hs
          | loop r => exact absurd hs List.not_mem_nil
        | _ => exact absurd hs List.not_mem_nil
      · exact hstarted s hs

end Past

end TwoTier
