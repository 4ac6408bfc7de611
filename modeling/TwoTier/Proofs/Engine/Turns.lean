import TwoTier.Proofs.Engine.Course
import TwoTier.Proofs.Engine.Schedule

/-!
# What a call comes to, turn by turn

A call does in its turns what the worlds in which it takes them make of it (`Call.after`). Once it
has ended it stays so. A call that another one follows has not ended, or cannot go on, or the other
has begun in the turn in which it has ended (`Call.after_bind`, `Call.EndsAt`).
-/

set_option autoImplicit false
set_option relaxedAutoImplicit false

namespace TwoTier

variable {ρ : Type}

namespace Call

variable {α : Type}

/-- What a call has yet to do after steps of its thread in some worlds, one after another. -/
def after (me : Nat) (c : Call α) (ws : List (World ρ)) : Call α :=
  ws.foldl (fun c w ↦ ((w.resume c).exec me w.heap []).rest) c

theorem after_cons (me : Nat) (c : Call α) (w : World ρ) (ws : List (World ρ)) :
    after me c (w :: ws) = after me ((w.resume c).exec me w.heap []).rest ws := rfl

/-- The last turn comes after all the others. -/
theorem after_concat (me : Nat) (c : Call α) (ws : List (World ρ)) (w : World ρ) :
    after me c (ws ++ [w]) = ((w.resume (after me c ws)).exec me w.heap []).rest := by
  unfold after
  rw [List.foldl_append]
  rfl

theorem after_append (me : Nat) (c : Call α) (ws ws' : List (World ρ)) :
    after me c (ws ++ ws') = after me (after me c ws) ws' := by
  unfold after
  rw [List.foldl_append]

/-- A call that has ended has ended. -/
theorem after_done (me : Nat) (a : α) (ws : List (World ρ)) : after me (.done a) ws = .done a := by
  induction ws with
  | nil => rfl
  | cons w ws ih => exact ih

theorem after_crash (me : Nat) (ws : List (World ρ)) : after me (.crash : Call α) ws = .crash := by
  induction ws with
  | nil => rfl
  | cons w ws ih => exact ih

/-! ### One call after another -/

variable {β : Type} {me : Nat} {c : Call α}

/-- A call that has not ended goes on after its wait as before what follows it. -/
theorem resume_bind (hc : c.conclusion? = none) (f : α → Call β) (w : World ρ) :
    w.resume (c.bind f) = (w.resume c).bind f := by
  cases c with
  | done a => cases hc
  | await i k =>
    simp only [Call.bind, World.resume]
    cases w.outcomes[i]? <;> rfl
  | _ => rfl

theorem conclusion?_bind (hc : c.conclusion? = none) (f : α → Call β) :
    (c.bind f).conclusion? = none := by
  cases c with
  | done a => cases hc
  | crash => cases hc
  | _ => rfl

/-- What the step of a call comes to that another one follows. -/
theorem exec_bind_cases (me : Nat) (c : Call α) (f : α → Call β) (h : Heap) :
    (∃ h' a, c.exec me h [] = ⟨h', [], .done a⟩ ∧
      (c.bind f).exec me h [] = (f a).exec me h' []) ∨
    ((c.exec me h []).rest = .crash ∧ ((c.bind f).exec me h []).rest = .crash) ∨
    ((c.exec me h []).rest.conclusion? = none ∧
      ((c.bind f).exec me h []).rest = (c.exec me h []).rest.bind f) := by
  have hbind := exec_bind me c f h []
  rw [exec_eq_enter me c] at hbind ⊢
  generalize c.halt me h = halted at hbind ⊢
  obtain ⟨h', c'⟩ := halted
  cases c' with
  | done a => exact Or.inl ⟨h', a, rfl, hbind⟩
  | crash => exact Or.inr (Or.inl ⟨rfl, congrArg Progress.rest hbind⟩)
  | join g key fill k =>
    refine Or.inr (Or.inr ?_)
    cases hi : (h'.guard g).inFlight[key]? <;> simp only [enter, hi] at hbind ⊢ <;>
      exact ⟨rfl, congrArg Progress.rest hbind⟩
  | _ => exact Or.inr (Or.inr ⟨rfl, congrArg Progress.rest hbind⟩)

/-- A fill that has just been started has yet to take its first step. -/
theorem conclusion?_of_started {h : Heap} {s : Fill} (hs : s ∈ (c.exec me h []).fills) :
    s.code.conclusion? = none := by
  rw [exec_eq_enter] at hs
  generalize c.halt me h = halted at hs
  unfold enter at hs
  split at hs
  · split at hs
    · exact absurd hs List.not_mem_nil
    · rw [List.nil_append] at hs
      rw [List.mem_singleton.mp hs]
      rfl
  · exact absurd hs List.not_mem_nil

/-- The turn in which a call has ended that another one follows: the worlds before it, its own
world, and the heap in which the other begins. -/
structure EndsAt (me : Nat) (c : Call α) (pre : List (World ρ)) (w : World ρ) (h : Heap) (a : α) :
    Prop where
  /-- Until this turn it has not ended. -/
  before : (c.after me pre).conclusion? = none
  /-- It ends in this turn. -/
  now : (w.resume (c.after me pre)).exec me w.heap [] = ⟨h, [], .done a⟩

namespace EndsAt

variable {pre : List (World ρ)} {w : World ρ} {h : Heap} {a : α}

theorem after_eq (he : EndsAt me c pre w h a) (later : List (World ρ)) :
    c.after me (pre ++ w :: later) = .done a := by
  rw [after_append, after_cons, he.now, after_done]

/-- The step in which a call ends changes no guard, no number of a thread and not the clock. -/
theorem kept (he : EndsAt me c pre w h a) :
    h.guards = w.heap.guards ∧ h.nextThread = w.heap.nextThread ∧ h.now = w.heap.now := by
  have hkept := halt_kept me (w.resume (c.after me pre)) w.heap
  have hnow := he.now
  rw [exec_eq_enter] at hnow
  generalize (w.resume (c.after me pre)).halt me w.heap = halted at hkept hnow
  obtain ⟨h', c'⟩ := halted
  have hsame : h' = h := by
    cases c' with
    | join g key fill k =>
      simp only [enter] at hnow
      split at hnow <;> cases hnow
    | _ => exact congrArg Progress.heap hnow
  rwa [hsame] at hkept

/-- A call ends once. -/
theorem unique {pre' later later' : List (World ρ)} {w' : World ρ} {h' : Heap} {a' : α}
    (he : EndsAt me c pre w h a) (he' : EndsAt me c pre' w' h' a')
    (hws : pre ++ w :: later = pre' ++ w' :: later') : w = w' := by
  have hshort : ∀ {pre₁ pre₂ rest : List (World ρ)} {w₁ w₂ : World ρ} {h₁ h₂ : Heap} {a₁ a₂ : α},
      EndsAt me c pre₁ w₁ h₁ a₁ → EndsAt me c pre₂ w₂ h₂ a₂ → pre₂ ≠ pre₁ ++ w₁ :: rest := by
    intro pre₁ pre₂ rest w₁ w₂ h₁ h₂ a₁ a₂ hfirst hsecond heq
    have hended := hsecond.before
    rw [heq, hfirst.after_eq] at hended
    cases hended
  rcases List.append_eq_append_iff.mp hws with ⟨mid, rfl, hmid⟩ | ⟨mid, rfl, hmid⟩
  · cases mid with
    | nil => exact (List.cons.inj hmid).1
    | cons w₁ mid =>
      obtain ⟨rfl, -⟩ := List.cons.inj hmid
      exact absurd rfl (hshort he he')
  · cases mid with
    | nil => exact (List.cons.inj hmid).1.symm
    | cons w₁ mid =>
      obtain ⟨rfl, -⟩ := List.cons.inj hmid
      exact absurd rfl (hshort he' he)

end EndsAt

/-- A call that another one follows has not ended, or cannot go on, or the other has begun in the
step in which it has ended. -/
theorem after_bind (me : Nat) (hc : c.conclusion? = none) (f : α → Call β)
    (ws : List (World ρ)) :
    ((c.after me ws).conclusion? = none ∧ (c.bind f).after me ws = (c.after me ws).bind f) ∨
    (c.after me ws = .crash ∧ (c.bind f).after me ws = .crash) ∨
    ∃ pre w later h a, ws = pre ++ w :: later ∧ EndsAt me c pre w h a ∧
      (c.bind f).after me pre = (c.after me pre).bind f ∧
      (c.bind f).after me ws = ((f a).exec me h []).rest.after me later := by
  induction ws generalizing c with
  | nil => exact Or.inl ⟨hc, rfl⟩
  | cons w ws ih =>
    rw [after_cons me (c.bind f), resume_bind hc, after_cons]
    rcases exec_bind_cases me (w.resume c) f w.heap with
      ⟨h, a, hend, hthen⟩ | ⟨hcrash, hthen⟩ | ⟨hgoes, hthen⟩
    · refine Or.inr (Or.inr ⟨[], w, ws, h, a, rfl, ⟨hc, hend⟩, rfl, ?_⟩)
      rw [hthen]
    · rw [hcrash, hthen]
      exact Or.inr (Or.inl ⟨after_crash me ws, after_crash me ws⟩)
    · rw [hthen]
      refine (ih hgoes).imp_right (Or.imp_right ?_)
      rintro ⟨pre, w', later, h, a, rfl, hend, hpre, hlater⟩
      refine ⟨w :: pre, w', later, h, a, rfl, ⟨hend.before, hend.now⟩, ?_, hlater⟩
      rw [after_cons, resume_bind hc, hthen]
      exact hpre

/-- In the turn in which a call ends the one that follows it takes its first step. -/
theorem EndsAt.exec_bind {pre : List (World ρ)} {w : World ρ} {h : Heap} {a : α}
    (he : EndsAt me c pre w h a) (hc : c.conclusion? = none) (f : α → Call β) :
    (w.resume ((c.bind f).after me pre)).exec me w.heap [] = (f a).exec me h [] := by
  rcases after_bind me hc f pre with
    ⟨-, hpre⟩ | ⟨hcrash, -⟩ | ⟨pre', w', later, h', a', rfl, hend, -⟩
  · rw [hpre, resume_bind he.before]
    rcases exec_bind_cases me (w.resume (c.after me pre)) f w.heap with
      ⟨h', a', hnow, hthen⟩ | ⟨hcrash, -⟩ | ⟨hgoes, -⟩
    · obtain ⟨rfl, -, hdone⟩ := Progress.mk.inj (he.now.symm.trans hnow)
      cases hdone
      exact hthen
    · rw [he.now] at hcrash
      cases hcrash
    · rw [he.now] at hgoes
      cases hgoes
  · have hbefore := he.before
    rw [hcrash] at hbefore
    cases hbefore
  · have hbefore := he.before
    rw [hend.after_eq] at hbefore
    cases hbefore

/-- A call whose result is turned into another ends with such a result, if with any. -/
theorem exists_of_after_map {f : α → β} {h : Heap} {ws : List (World ρ)} {b : β}
    (hb : ((c.bind fun a ↦ .done (f a)).exec me h []).rest.after me ws = .done b) :
    ∃ a, b = f a := by
  rcases exec_bind_cases me c (fun a ↦ .done (f a)) h with
    ⟨h', a, -, hthen⟩ | ⟨-, hthen⟩ | ⟨hgoes, hthen⟩
  · rw [hthen] at hb
    change (done (f a)).after me ws = _ at hb
    rw [after_done] at hb
    cases hb
    exact ⟨a, rfl⟩
  · rw [hthen, after_crash] at hb
    cases hb
  · rw [hthen] at hb
    rcases after_bind me hgoes (fun a ↦ .done (f a)) ws with
      ⟨hnone, hafter⟩ | ⟨-, hafter⟩ | ⟨_, _, later, h', a, -, -, -, hafter⟩
    · have hend := conclusion?_bind hnone fun a ↦ (.done (f a) : Call β)
      rw [← hafter, hb] at hend
      cases hend
    · rw [hafter] at hb
      cases hb
    · rw [hafter] at hb
      change (done (f a)).after me later = _ at hb
      rw [after_done] at hb
      cases hb
      exact ⟨a, rfl⟩

/-- Who waits for a fill waits until the outcome is known, and has it then. -/
theorem after_await (me i : Nat) (ws : List (World ρ)) :
    (await i done).after me ws = await i done ∨
      ∃ w ∈ ws, ∃ o, w.outcomes[i]? = some o ∧ (await i done).after me ws = done o := by
  induction ws with
  | nil => exact Or.inl rfl
  | cons w ws ih =>
    rw [after_cons]
    cases ho : w.outcomes[i]? with
    | none =>
      have hwaits : w.resume (await i done) = await i done := by simp only [World.resume, ho]
      rw [hwaits]
      refine ih.imp_right ?_
      rintro ⟨w', hw', o, ho', hdone⟩
      exact ⟨w', List.mem_cons_of_mem _ hw', o, ho', hdone⟩
    | some o =>
      have hgoes : w.resume (await i done) = done o := by simp only [World.resume, ho]
      rw [hgoes]
      exact Or.inr ⟨w, List.mem_cons_self, o, ho, after_done me o ws⟩

end Call

end TwoTier
