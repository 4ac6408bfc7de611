import TwoTier.Proofs.Engine.AtOnce

/-!
# The course of one call among others

A call takes its steps while others take theirs. What the others do is seen in the heap that each
step of the call begins with; nothing else is known of it. A `Call.Course` is a list of such steps,
and it says nothing of how the heap after one step is related to the heap before the next. Whatever
holds of all courses of a call therefore holds whatever else runs, as every step that a task or a
fill takes in a world goes on so (`World.resumes_resume`).

What a call does after another (`Call.exec_bind`) begins in the step in which the other ends.
-/

set_option autoImplicit false
set_option relaxedAutoImplicit false

namespace TwoTier

namespace Call

variable {α β : Type} {me : Nat}

/-- A step of a call. -/
structure Step where
  /-- The heap that it finds. -/
  before : Heap
  /-- The heap that it leaves. -/
  after : Heap
  /-- The fills that it starts. -/
  fills : List Fill

/-- What a call may go on with at its next step: where it let others run, with what follows; where
it waited for a fill, with any outcome that the fill may have. -/
inductive Resumes : Call α → Call α → Prop
  /-- It goes on where it is. -/
  | same (c : Call α) : Resumes c c
  /-- Others have run. -/
  | paused (k : Call α) : Resumes (pause k) k
  /-- The fill has ended. -/
  | awaited (i : Nat) (k : Answer String → Call α) (o : Answer String) : Resumes (await i k) (k o)

/-- The steps of the call of thread `me`, the first of them first, and what it has yet to do after
them. Before each of them others may leave any heap. -/
inductive Course (me : Nat) : Call α → List Step → Call α → Prop
  /-- No step has been taken. -/
  | nil (c : Call α) : Course me c [] c
  /-- A step is taken, and others follow. -/
  | cons {c c' rest : Call α} {later : List Step} (hresumes : Resumes c c') (h : Heap)
      (hlater : Course me (c'.exec me h []).rest later rest) :
      Course me c (⟨h, (c'.exec me h []).heap, (c'.exec me h []).fills⟩ :: later) rest

/-! ### Calls that have ended -/

/-- A call has ended, or cannot go on. -/
def Ended : Call α → Prop
  | done _ => True
  | crash => True
  | _ => False

/-- A call has ended with an answer that is not an error. -/
def Succeeded : Call (Answer α) → Prop
  | done (.ok _) => True
  | _ => False

/-- A call has ended with an error, or cannot go on. -/
def Failed : Call (Answer α) → Prop
  | done (.error _) => True
  | crash => True
  | _ => False

theorem Failed.not_succeeded {c : Call (Answer α)} (hc : c.Failed) : ¬ c.Succeeded := by
  unfold Failed at hc
  split at hc
  · exact not_false
  · exact not_false
  · exact hc.elim

theorem Ended.exec {c : Call α} (hc : c.Ended) (h : Heap) (fills : List Fill) :
    c.exec me h fills = ⟨h, fills, c⟩ := by
  cases c with
  | done a => rfl
  | crash => rfl
  | _ => exact hc.elim

theorem Ended.resumes {c c' : Call α} (hc : c.Ended) (h : Resumes c c') : c' = c := by
  cases h with
  | same => rfl
  | paused k => exact hc.elim
  | awaited i k o => exact hc.elim

theorem Succeeded.ended {c : Call (Answer α)} (hc : c.Succeeded) : c.Ended := by
  unfold Succeeded at hc
  split at hc
  · exact trivial
  · exact hc.elim

/-- A call that has ended stays as it is. -/
theorem Ended.course {c rest : Call α} {steps : List Step} (hc : c.Ended)
    (h : Course me c steps rest) : rest = c := by
  induction h with
  | nil c => rfl
  | cons hresumes h _ ih =>
    have hsame := hc.resumes hresumes
    subst hsame
    rw [hc.exec] at ih
    exact ih hc

/-! ### What every step but the last keeps -/

/-- A class of calls that waiting calls stay in. Where the call has not come to a good end, each of
its steps kept what the steps of the class keep. -/
theorem Course.forall_steps {C : Call (Answer α) → Prop} {P : Step → Prop}
    (hclass : ∀ {c c' : Call (Answer α)}, C c → Resumes c c' → ∀ h,
      let p := c'.exec me h []
      C p.rest ∧ (¬ p.rest.Succeeded → P ⟨h, p.heap, p.fills⟩))
    {c rest : Call (Answer α)} {steps : List Step} (h : Course me c steps rest) (hc : C c)
    (hrest : ¬ rest.Succeeded) : ∀ step ∈ steps, P step := by
  induction h with
  | nil c => exact fun step hstep ↦ absurd hstep List.not_mem_nil
  | cons hresumes h hlater ih =>
    obtain ⟨hnext, hkept⟩ := hclass hc hresumes h
    refine List.forall_mem_cons.mpr ⟨hkept fun hsucceeded ↦ ?_, ih hnext hrest⟩
    rw [hsucceeded.ended.course hlater] at hrest
    exact hrest hsucceeded

/-! ### One call after another -/

/-- What a call does after another begins in the step in which the other ends. -/
theorem exec_bind (me : Nat) (c : Call α) (f : α → Call β) (h : Heap) (fills : List Fill) :
    (c.bind f).exec me h fills =
      match c.exec me h fills with
      | ⟨h', fills', done a⟩ => (f a).exec me h' fills'
      | ⟨h', fills', c'⟩ => ⟨h', fills', c'.bind f⟩ := by
  rw [exec_eq_enter, halt_bind, exec_eq_enter]
  obtain ⟨h', c'⟩ := c.halt me h
  cases c' with
  | done a => exact (exec_eq_enter me (f a) h' fills).symm
  | join g key fill k =>
    simp only [haltThen, Call.bind, enter]
    cases (h'.guard g).inFlight[key]? <;> rfl
  | _ => rfl

/-- A call followed by one that does not begin with a wait goes on as itself. -/
theorem Resumes.of_bind {c : Call α} {f : α → Call β}
    (hf : ∀ {a d}, Resumes (f a) d → d = f a) {d : Call β} (h : Resumes (c.bind f) d) :
    ∃ c', Resumes c c' ∧ d = c'.bind f := by
  cases c with
  | done a => exact ⟨done a, .same _, hf h⟩
  | pause k =>
    cases h with
    | same => exact ⟨pause k, .same _, rfl⟩
    | paused => exact ⟨k, .paused k, rfl⟩
  | await i k =>
    cases h with
    | same => exact ⟨await i k, .same _, rfl⟩
    | awaited i k' o => exact ⟨k o, .awaited i k o, rfl⟩
  | _ =>
    cases h
    exact ⟨_, .same _, rfl⟩

end Call

/-- What a call does next whose wait is over is what it may go on with. -/
theorem World.resumes_resume {ρ α : Type} (w : World ρ) (c : Call α) :
    Call.Resumes c (w.resume c) := by
  unfold World.resume
  split
  · exact .paused _
  · split
    · exact .awaited _ _ _
    · exact .same _
  · exact .same _

end TwoTier
