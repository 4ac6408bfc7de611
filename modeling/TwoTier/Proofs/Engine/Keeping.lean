import TwoTier.Proofs.Engine.Quiet
import TwoTier.Proofs.Engine.Told

/-!
# What no step of a call takes away

A call may find anything at its steps, and others may do anything between them. Where each of its
steps keeps a property of the heap (`Call.Keeps`), so does what is left of it (`Call.Keeps.rest`),
and so does a sequence of such calls (`Call.Keeps.bind`). A call that ends with the outcome of the
fill for which it waits changes nothing any more (`Call.Idle`).

In a world, what is stored under a key after the turn of a task or of a fill is what the step of its
call has left there (`Past.Leads.stored?_task`, `Past.Leads.stored?_fill`).
-/

set_option autoImplicit false
set_option relaxedAutoImplicit false

namespace TwoTier

/-- What is stored under a key of a store. -/
def Heap.stored? (h : Heap) (s : Nat) (key : String) : Option Stored := (h.tiers.store s).data[key]?

namespace Call

variable {α β : Type} {me : Nat} {K : Heap → Prop}

/-- A call that has not ended goes on as itself, whatever follows it. -/
theorem Resumes.of_bind_of_ne {c : Call α} {f : α → Call β} (hc : ∀ a, c ≠ done a) {d : Call β}
    (h : Resumes (c.bind f) d) : ∃ c', Resumes c c' ∧ d = c'.bind f := by
  cases c with
  | done a => exact absurd rfl (hc a)
  | pause k =>
    cases h with
    | same => exact ⟨pause k, .same _, rfl⟩
    | paused => exact ⟨k, .paused k, rfl⟩
  | await i k =>
    cases h with
    | same => exact ⟨await i k, .same _, rfl⟩
    | awaited i k' o => exact ⟨k o, .awaited i k o, rfl⟩
  | _ =>
    cases h
    exact ⟨_, .same _, rfl⟩

/-- The step of a call that does not end in it leaves the same, whatever follows it. -/
theorem heap_exec_bind {c : Call α} {h : Heap} (hne : ∀ a, (c.exec me h []).rest ≠ done a)
    (f : α → Call β) : ((c.bind f).exec me h []).heap = (c.exec me h []).heap := by
  rw [exec_bind]
  generalize c.exec me h [] = p at hne
  obtain ⟨h', fills, rest⟩ := p
  cases rest with
  | done a => exact absurd rfl (hne a)
  | _ => rfl

/-! ### Calls that keep a property of the heap -/

/-- Each step of a call of thread `me` keeps a property of the heap. -/
def Keeps (me : Nat) (K : Heap → Prop) (c : Call α) : Prop :=
  ∀ steps rest, Course me c steps rest → ∀ step ∈ steps, K step.before → K step.after

namespace Keeps

variable {c c' : Call α}

theorem step (hc : c.Keeps me K) (hresumes : Resumes c c') {h : Heap} (hK : K h) :
    K (c'.exec me h []).heap :=
  hc _ _ (.cons hresumes h (.nil _)) _ List.mem_cons_self hK

/-- What is left of such a call after a step is such a call. -/
theorem rest (hc : c.Keeps me K) (hresumes : Resumes c c') (h : Heap) :
    (c'.exec me h []).rest.Keeps me K := fun _ _ hcourse step hstep ↦
  hc _ _ (.cons hresumes h hcourse) step (List.mem_cons_of_mem _ hstep)

theorem of_ended (hc : c.Ended) : c.Keeps me K := by
  intro steps rest hcourse
  induction hcourse with
  | nil c => exact fun step hstep ↦ absurd hstep List.not_mem_nil
  | cons hresumes h _ ih =>
    obtain rfl := hc.resumes hresumes
    rw [hc.exec] at ih ⊢
    exact List.forall_mem_cons.mpr ⟨id, ih hc⟩

/-- A call that ends in its first step. -/
theorem of_atOnce (hc : ∀ {c'}, Resumes c c' → c' = c)
    (hstep : ∀ h, c.AtOnce me h (fun _ h' ↦ K h → K h') fun h' ↦ K h → K h') : c.Keeps me K := by
  intro steps rest hcourse
  cases hcourse with
  | nil => exact fun step hstep ↦ absurd hstep List.not_mem_nil
  | @cons _ c' _ later hresumes h hlater =>
    obtain rfl := hc hresumes
    have hended : (c'.exec me h []).rest.Ended ∧ (K h → K (c'.exec me h []).heap) := by
      rcases (hstep h).rest_exec with ⟨a, hrest, hK⟩ | ⟨hrest, hK⟩ <;> rw [hrest] <;>
        exact ⟨trivial, hK⟩
    exact List.forall_mem_cons.mpr ⟨hended.2, of_ended hended.1 _ _ hlater⟩

theorem pause (hc : c.Keeps me K) : (Call.pause c).Keeps me K := by
  intro steps rest hcourse
  generalize hd : Call.pause c = d at hcourse
  induction hcourse with
  | nil d => exact fun step hstep ↦ absurd hstep List.not_mem_nil
  | cons hresumes h hlater ih =>
    subst hd
    cases hresumes with
    | same => exact List.forall_mem_cons.mpr ⟨id, ih rfl⟩
    | paused => exact hc _ _ (.cons (.same c) h hlater)

theorem bind {f : α → Call β} (hc : c.Keeps me K) (hf : ∀ a, (f a).Keeps me K) :
    (c.bind f).Keeps me K := by
  intro steps rest hcourse
  generalize hd : c.bind f = d at hcourse
  induction hcourse generalizing c with
  | nil d => exact fun step hstep ↦ absurd hstep List.not_mem_nil
  | @cons d d' rest later hresumes h hlater ih =>
    subst hd
    by_cases hne : ∀ a, c ≠ done a
    · obtain ⟨c', hc', rfl⟩ := hresumes.of_bind_of_ne hne
      rcases exec_bind_cases me c' f h with
        ⟨h', a, hend, hthen⟩ | ⟨hcrash, hthen⟩ | ⟨hgoes, hthen⟩
      · -- the other call begins in the step in which the first one ends
        have hK : K h → K h' := fun hK ↦ by
          have hkept := hc.step hc' hK
          rwa [hend] at hkept
        have hfirst : K h → K ((f a).exec me h' []).heap := fun h₀ ↦ (hf a).step (.same _) (hK h₀)
        rw [hthen] at hlater ⊢
        exact List.forall_mem_cons.mpr ⟨hfirst, (hf a).rest (.same _) h' _ _ hlater⟩
      · refine List.forall_mem_cons.mpr ⟨fun hK ↦ ?_, ?_⟩
        · change K ((c'.bind f).exec me h []).heap
          rw [heap_exec_bind fun a ha ↦ by rw [hcrash] at ha; cases ha]
          exact hc.step hc' hK
        · rw [hthen] at hlater
          exact of_ended (show (crash : Call β).Ended from trivial) _ _ hlater
      · refine List.forall_mem_cons.mpr ⟨fun hK ↦ ?_, ih (hc.rest hc' h) hthen.symm⟩
        change K ((c'.bind f).exec me h []).heap
        rw [heap_exec_bind fun a ha ↦ by rw [ha] at hgoes; cases hgoes]
        exact hc.step hc' hK
    · obtain ⟨a, rfl⟩ := not_forall_not.mp hne
      exact hf a _ _ (.cons hresumes h hlater)

variable {ρ : Type}

/-- What is left of such a call after some turns is such a call. -/
theorem after (hc : c.Keeps me K) (ws : List (World ρ)) : (c.after me ws).Keeps me K := by
  induction ws generalizing c with
  | nil => exact hc
  | cons w ws ih => exact ih (hc.rest (w.resumes_resume c) w.heap)

/-- Each turn of such a call keeps the property. -/
theorem turn (hc : c.Keeps me K) (ws : List (World ρ)) {w : World ρ} (hK : K w.heap) :
    K ((w.resume (c.after me ws)).exec me w.heap []).heap :=
  (hc.after ws).step (w.resumes_resume _) hK

end Keeps

/-! ### Calls that do nothing but wait for a fill -/

/-- A call that has ended, or ends with the outcome of the fill for which it waits. -/
inductive Idle : Call α → Prop
  /-- It has ended. -/
  | ended {c : Call α} (hc : c.Ended) : Idle c
  /-- It waits. -/
  | waiting {i : Nat} {k : Answer String → Call α} (hended : ∀ o, (k o).Ended) : Idle (await i k)

/-- The fills that a call has started in its turns. -/
def startedIn {ρ : Type} (me : Nat) (c : Call α) : List (World ρ) → List Fill
  | [] => []
  | w :: ws =>
    ((w.resume c).exec me w.heap []).fills ++ startedIn me ((w.resume c).exec me w.heap []).rest ws

theorem startedIn_concat {ρ : Type} (me : Nat) (c : Call α) (ws : List (World ρ)) (w : World ρ) :
    startedIn me c (ws ++ [w]) =
      startedIn me c ws ++ ((w.resume (after me c ws)).exec me w.heap []).fills := by
  induction ws generalizing c with
  | nil => exact List.append_nil _
  | cons w' ws ih =>
    rw [List.cons_append, startedIn, ih, startedIn, List.append_assoc]
    rfl

/-- At a turn of such a call nothing happens but that it ends. -/
theorem Idle.turn {ρ : Type} {c : Call α} (hc : c.Idle) (me : Nat) (w : World ρ) :
    ∃ rest, (w.resume c).exec me w.heap [] = ⟨w.heap, [], rest⟩ ∧ rest.Idle := by
  cases hc with
  | ended hc =>
    obtain hsame := hc.resumes (w.resumes_resume c)
    exact ⟨c, by rw [hsame, hc.exec], .ended hc⟩
  | @waiting i k hended =>
    simp only [World.resume]
    cases w.outcomes[i]? with
    | none => exact ⟨_, rfl, .waiting hended⟩
    | some o => exact ⟨k o, (hended o).exec w.heap [], .ended (hended o)⟩

end Call

/-! ### What is stored after a turn -/

namespace World

variable {ρ : Type} (w : World ρ)

theorem data_letGo (held : List Held) (s : Nat) :
    ((w.letGo held).heap.tiers.store s).data = (w.heap.tiers.store s).data := by
  unfold letGo
  split
  · rfl
  · exact (Tiers.quiet_release (l := 0) w.heap.tiers w.held).data

theorem tiers_absorb {α : Type} (me : Nat) (p : Progress α) :
    (w.absorb me p).heap.tiers = p.heap.tiers := by
  unfold absorb
  dsimp only
  split <;> rfl

theorem data_afterTask (t : Task ρ) (p : Progress ρ) (s : Nat) :
    ((w.afterTask t p).heap.tiers.store s).data = (p.heap.tiers.store s).data := by
  rw [← tiers_absorb w t.id p]
  unfold afterTask
  dsimp only
  split
  · exact data_letGo _ _ s
  · rfl

theorem data_afterFill (f : Fill) (p : Progress (Answer String)) (s : Nat) :
    ((w.afterFill f p).heap.tiers.store s).data = (p.heap.tiers.store s).data := by
  rw [← tiers_absorb w f.id p]
  unfold afterFill
  dsimp only
  split
  · exact data_letGo _ _ s
  · rfl

end World

namespace Past

variable {ρ : Type} {rules : Move ρ → Prop} {past : Past ρ} {w : World ρ}

/-- After the turn of a task a key holds what the step of its call has left there. -/
theorem Leads.stored?_task (h : Leads rules past w) {i : Nat} {code : Call ρ}
    (hmade : past.made i = some code) (hhosts : w.Hosts (.task i)) (s : Nat) (key : String) :
    (w.apply (.run (.task i))).heap.stored? s key =
      ((w.resume (code.after i (past.turns (.task i)))).exec i w.heap []).heap.stored? s key := by
  cases hfind : w.tasks.find? fun t ↦ t.id = i with
  | none =>
    obtain ⟨t, ht, hid⟩ := hhosts
    exact absurd (decide_eq_true hid) (List.find?_eq_none.mp hfind t ht)
  | some t =>
    obtain ⟨ht, rfl⟩ := World.mem_of_find? hfind
    obtain ⟨hcode, -⟩ := h.told.code_of_made hmade ht rfl
    simp only [World.apply, World.run, hfind]
    rw [World.runTask_eq, hcode]
    exact congrArg (·[key]?) (World.data_afterTask w t _ s)

/-- A fill that takes a turn has not ended, and after the turn a key holds what its step has left
there. -/
theorem Leads.stored?_fill (h : Leads rules past w) {f : Fill} (hf : f ∈ past.started)
    (hhosts : w.Hosts (.fill f.id)) (s : Nat) (key : String) :
    (f.code.after f.id (past.turns (.fill f.id))).conclusion? = none ∧
      (w.apply (.run (.fill f.id))).heap.stored? s key =
        ((w.resume (f.code.after f.id (past.turns (.fill f.id)))).exec f.id w.heap
          []).heap.stored? s key := by
  cases hfind : w.fills.find? fun g ↦ g.id = f.id with
  | none =>
    obtain ⟨g, hg, hid⟩ := hhosts
    exact absurd (decide_eq_true hid) (List.find?_eq_none.mp hfind g hg)
  | some g =>
    obtain ⟨hg, hid⟩ := World.mem_fills_of_find? hfind
    rcases h.told.started f hf with ⟨g', hg', hid', -, -, hcode, hnone⟩ | ⟨o, ho, -⟩
    · obtain rfl := h.guards.agrees.fill_eq_of_id hg' hg (hid'.trans hid.symm)
      rw [← hcode]
      refine ⟨hnone, ?_⟩
      simp only [World.apply, World.run, hfind]
      rw [World.runFill_eq, ← hid]
      exact congrArg (·[key]?) (World.data_afterFill w g' _ s)
    · rw [← hid, h.guards.agrees.outcome_eq_none hg] at ho
      cases ho

end Past

end TwoTier
