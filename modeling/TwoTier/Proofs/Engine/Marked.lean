import TwoTier.Proofs.Engine.AtOnce

/-!
# Calls with marks

What holds of the calls of many tasks is often said about their history: which key was written last,
which listener was started last. A `Marked` call is a call whose code leaves marks at the moments
that count; without them it is the call itself (`Marked.call`, `Call.Underlies`), and it runs in the
same steps (`Marked.Safe.halt`).

`Marked.Safe` says of a marked call that it keeps an invariant of the heap and of the log of all
marks. Between two waits the invariant may be broken; at every wait it has to hold, and the call has
to be safe again in every heap and with every log that others may leave meanwhile, as long as the
invariant holds and the marks of the call itself are the same.
-/

set_option autoImplicit false
set_option relaxedAutoImplicit false

namespace TwoTier

/-- The marks of all threads, the latest first. -/
abbrev Log (ε : Type) := List (Nat × ε)

/-- A call that leaves marks. -/
inductive Marked (ε : Type) : Type → Type 1 where
  /-- The call has ended. -/
  | done {α : Type} (a : α) : Marked ε α
  /-- The call cannot go on. -/
  | crash {α : Type} : Marked ε α
  /-- Code that runs to its end in one step. -/
  | act {α β : Type} (c : Call β) (k : β → Marked ε α) : Marked ε α
  /-- A mark is left. -/
  | mark {α : Type} (e : Heap → ε) (k : Marked ε α) : Marked ε α
  /-- Lets others run. -/
  | pause {α : Type} (k : Marked ε α) : Marked ε α
  /-- Waits for a moment, or for ever. -/
  | sleep {α : Type} (wake : Option Nat) (k : Marked ε α) : Marked ε α
  /-- Takes an element from the first non-empty list of a store among some keys. -/
  | pop {α : Type} (store : Nat) (keys : List String) (deadline : Option Nat) (seen : Option Nat)
      (k : Answer (Option (String × String)) → Marked ε α) : Marked ε α
  /-- Waits for the fill of a key, or starts one. -/
  | join {α : Type} (guard : Nat) (key : String) (fill : Marked ε (Answer String))
      (k : Answer String → Marked ε α) : Marked ε α
  /-- Waits for the outcome of a fill. -/
  | await {α : Type} (fill : Nat) (k : Answer String → Marked ε α) : Marked ε α
  /-- Waits in line for a lock. -/
  | acquire {α : Type} (lock : Lock) (k : Marked ε α) : Marked ε α
  /-- Gives a lock back. -/
  | release {α : Type} (lock : Lock) (k : Marked ε α) : Marked ε α
  /-- Waits for a receive loop to end. -/
  | loopEnd {α : Type} (loop : Nat) (deadline : Option Nat) (k : Bool → Marked ε α) : Marked ε α

/-- The result of running a marked call up to a wait. -/
structure Halted (ε α : Type) where
  /-- The heap afterwards. -/
  heap : Heap
  /-- The log afterwards. -/
  log : Log ε
  /-- What the call has yet to do. -/
  rest : Marked ε α

namespace Marked

variable {ε α β : Type}

/-- The call without its marks. -/
def call {α : Type} : Marked ε α → Call α
  | done a => .done a
  | crash => .crash
  | act c k => c.bind fun b ↦ (k b).call
  | mark _ k => k.call
  | pause k => .pause k.call
  | sleep wake k => .sleep wake k.call
  | pop s keys deadline seen k => .pop s keys deadline seen fun a ↦ (k a).call
  | join g key fill k => .join g key fill.call fun a ↦ (k a).call
  | await i k => .await i fun a ↦ (k a).call
  | acquire m k => .acquire m k.call
  | release m k => .release m k.call
  | loopEnd r deadline k => .loopEnd r deadline fun b ↦ (k b).call

/-- A marked call followed by one that depends on its result. -/
protected def bind {α : Type} : Marked ε α → (α → Marked ε β) → Marked ε β
  | done a, f => f a
  | crash, _ => crash
  | act c k, f => act c fun b ↦ (k b).bind f
  | mark e k, f => mark e (k.bind f)
  | pause k, f => pause (k.bind f)
  | sleep wake k, f => sleep wake (k.bind f)
  | pop s keys deadline seen k, f => pop s keys deadline seen fun a ↦ (k a).bind f
  | join g key fill k, f => join g key fill fun a ↦ (k a).bind f
  | await i k, f => await i fun a ↦ (k a).bind f
  | acquire m k, f => acquire m (k.bind f)
  | release m k, f => release m (k.bind f)
  | loopEnd r deadline k, f => loopEnd r deadline fun b ↦ (k b).bind f

theorem bind_done (m : Marked ε α) : m.bind done = m := by
  induction m with
  | done a => rfl
  | crash => rfl
  | act c k ih => exact congrArg (act c) (funext ih)
  | mark e k ih => exact congrArg (mark e) ih
  | pause k ih => exact congrArg pause ih
  | sleep wake k ih => exact congrArg (sleep wake) ih
  | pop s keys deadline seen k ih => exact congrArg (pop s keys deadline seen) (funext ih)
  | join g key fill k _ ih => exact congrArg (join g key fill) (funext ih)
  | await i k ih => exact congrArg (await i) (funext ih)
  | acquire m k ih => exact congrArg (acquire m) ih
  | release m k ih => exact congrArg (release m) ih
  | loopEnd r deadline k ih => exact congrArg (loopEnd r deadline) (funext ih)

theorem bind_assoc {γ : Type} (m : Marked ε α) (f : α → Marked ε β) (g : β → Marked ε γ) :
    (m.bind f).bind g = m.bind fun a ↦ (f a).bind g := by
  induction m with
  | done a => rfl
  | crash => rfl
  | act c k ih => exact congrArg (act c) (funext fun b ↦ ih b f)
  | mark e k ih => exact congrArg (mark e) (ih f)
  | pause k ih => exact congrArg pause (ih f)
  | sleep wake k ih => exact congrArg (sleep wake) (ih f)
  | pop s keys deadline seen k ih =>
    exact congrArg (pop s keys deadline seen) (funext fun a ↦ ih a f)
  | join g key fill k _ ih => exact congrArg (join g key fill) (funext fun a ↦ ih a f)
  | await i k ih => exact congrArg (await i) (funext fun a ↦ ih a f)
  | acquire m k ih => exact congrArg (acquire m) (ih f)
  | release m k ih => exact congrArg (release m) (ih f)
  | loopEnd r deadline k ih => exact congrArg (loopEnd r deadline) (funext fun b ↦ ih b f)

theorem call_bind (m : Marked ε α) (f : α → Marked ε β) :
    (m.bind f).call = m.call.bind fun a ↦ (f a).call := by
  induction m with
  | done a => rfl
  | crash => rfl
  | act c k ih =>
    simp only [Marked.bind, call, Call.bind_assoc]
    exact congrArg c.bind (funext fun b ↦ ih b f)
  | mark e k ih => exact ih f
  | pause k ih => exact congrArg Call.pause (ih f)
  | sleep wake k ih => exact congrArg (Call.sleep wake) (ih f)
  | pop s keys deadline seen k ih =>
    exact congrArg (Call.pop s keys deadline seen) (funext fun a ↦ ih a f)
  | join g key fill k _ ih => exact congrArg (Call.join g key fill.call) (funext fun a ↦ ih a f)
  | await i k ih => exact congrArg (Call.await i) (funext fun a ↦ ih a f)
  | acquire m k ih => exact congrArg (Call.acquire m) (ih f)
  | release m k ih => exact congrArg (Call.release m) (ih f)
  | loopEnd r deadline k ih =>
    exact congrArg (Call.loopEnd r deadline) (funext fun b ↦ ih b f)

/-- Some marks are left, the first one first. -/
def marks {α : Type} : List (Heap → ε) → Marked ε α → Marked ε α
  | [], k => k
  | e :: es, k => mark e (marks es k)

theorem call_marks (es : List (Heap → ε)) (k : Marked ε α) : (marks es k).call = k.call := by
  induction es with
  | nil => rfl
  | cons e es ih => exact ih

theorem bind_marks (es : List (Heap → ε)) (k : Marked ε α) (f : α → Marked ε β) :
    (marks es k).bind f = marks es (k.bind f) := by
  induction es with
  | nil => rfl
  | cons e es ih => exact congrArg (mark e) ih

/-- Runs the marked call of thread `me` up to the first wait that is not over. -/
def halt (me : Nat) {α : Type} : Marked ε α → Heap → Log ε → Halted ε α
  | act c k, h, l =>
    match c.halt me h with
    | (h', .done b) => (k b).halt me h' l
    | (h', .crash) => ⟨h', l, crash⟩
    | _ => ⟨h, l, act c k⟩
  | mark e k, h, l => k.halt me h ((me, e h) :: l)
  | sleep wake k, h, l => if Call.due wake h.now then k.halt me h l else ⟨h, l, sleep wake k⟩
  | pop s keys deadline seen k, h, l =>
    let store := h.tiers.store s
    if seen = some store.pushes then
      if Call.due deadline h.now then (k (.ok none)).halt me h l
      else ⟨h, l, pop s keys deadline seen k⟩
    else
      let tried := store.tryPop h.now keys
      let h' := { h with tiers := h.tiers.setStore s tried.2 }
      match tried.1 with
      | .ok (some x) => (k (.ok (some x))).halt me h' l
      | .fault f => (k (.error f)).halt me h' l
      | _ =>
        if Call.due deadline h.now then (k (.ok none)).halt me h' l
        else ⟨h', l, pop s keys deadline (some store.pushes) k⟩
  | acquire m k, h, l =>
    let h' := h.enqueue m me
    if (h'.waiting m).head? = some me then k.halt me h' l else ⟨h', l, acquire m k⟩
  | release m k, h, l => k.halt me (h.leave m me) l
  | loopEnd r deadline k, h, l =>
    if (h.tiers.loop r).ended then (k true).halt me h l
    else if Call.due deadline h.now then (k false).halt me h l
    else ⟨h, l, loopEnd r deadline k⟩
  | m, h, l => ⟨h, l, m⟩

/-- Whether a call is at a wait, or has ended. -/
def Waits {α : Type} : Marked ε α → Prop
  | act _ _ => False
  | mark _ _ => False
  | release _ _ => False
  | _ => True

/-- Whether a call has ended. -/
def Over {α : Type} : Marked ε α → Prop
  | done _ => True
  | crash => True
  | _ => False

/-- The marks of a thread. -/
def marksOf (me : Nat) (l : Log ε) : Log ε := l.filter fun x ↦ x.1 = me

theorem marksOf_append {me : Nat} {new l : Log ε} (h : ∀ x ∈ new, x.1 ≠ me) :
    marksOf me (new ++ l) = marksOf me l := by
  unfold marksOf
  rw [List.filter_append, List.filter_eq_nil_iff.mpr fun x hx ↦ by simpa using h x hx]
  rfl

section Safe

variable (I : Heap → Log ε → Prop)

/-- Whatever others do while the invariant is kept. -/
def Later (me : Nat) (l : Log ε) (Q : Heap → Log ε → Prop) : Prop :=
  ∀ h' l', I h' l' → marksOf me l' = marksOf me l → Q h' l'

/-- The call of thread `me` keeps the invariant from a heap and a log on. -/
def Safe (me : Nat) {α : Type} : Marked ε α → Heap → Log ε → Prop
  | done _, h, l => I (h.leaveAll me) l
  | crash, h, l => I (h.leaveAll me) l
  | act c k, h, l =>
    (∃ h' b, c.halt me h = (h', .done b) ∧ Safe me (k b) h' l) ∨
      ∃ h', c.halt me h = (h', .crash) ∧ I (h'.leaveAll me) l
  | mark e k, h, l => Safe me k h ((me, e h) :: l)
  | pause k, h, l => I h l ∧ Later I me l (Safe me k)
  | sleep _ k, h, l => I h l ∧ Later I me l (Safe me k)
  | pop s keys _ _ k, h, l =>
    I h l ∧ Later I me l fun h' l' ↦
      let tried := (h'.tiers.store s).tryPop h'.now keys
      let h'' := { h' with tiers := h'.tiers.setStore s tried.2 }
      (∀ x, tried.1 = .ok (some x) → Safe me (k (.ok (some x))) h'' l') ∧
        (∀ f, tried.1 = .fault f → Safe me (k (.error f)) h'' l') ∧
        (tried.1 = .ok none ∨ tried.1 = .overflow → I h'' l') ∧ Safe me (k (.ok none)) h' l'
  | join _ _ fill k, h, l =>
    I h l ∧ (∀ i h' l', I h' l' → marksOf i l' = [] → Safe i fill h' l') ∧
      ∀ o, Later I me l (Safe me (k o))
  | await _ k, h, l => I h l ∧ ∀ o, Later I me l (Safe me (k o))
  | acquire m k, h, l =>
    I h l ∧ Later I me l fun h' l' ↦ I (h'.enqueue m me) l' ∧
      (((h'.enqueue m me).waiting m).head? = some me → Safe me k (h'.enqueue m me) l')
  | release m k, h, l => Safe me k (h.leave m me) l
  | loopEnd r deadline k, h, l =>
    I h l ∧ Later I me l fun h' l' ↦
      ((h'.tiers.loop r).ended = true → Safe me (k true) h' l') ∧
        (Call.due deadline h'.now = true → Safe me (k false) h' l')

variable {I}

/-- Code that ends at once keeps the invariant where what follows it does. -/
theorem Safe.of_atOnce {me : Nat} {c : Call β} {k : β → Marked ε α} {h : Heap} {l : Log ε}
    {P : β → Heap → Prop} {F : Heap → Prop} (hc : c.AtOnce me h P F)
    (hP : ∀ b h', P b h' → Safe I me (k b) h' l) (hF : ∀ h', F h' → I (h'.leaveAll me) l) :
    Safe I me (act c k) h l := by
  rcases hc with ⟨h', b, hhalt, hpost⟩ | ⟨h', hhalt, hfail⟩
  · exact Or.inl ⟨h', b, hhalt, hP b h' hpost⟩
  · exact Or.inr ⟨h', hhalt, hF h' hfail⟩

theorem Later.now {me : Nat} {l : Log ε} {Q : Heap → Log ε → Prop} (hl : Later I me l Q) {h : Heap}
    (hi : I h l) : Q h l :=
  hl h l hi rfl

/-- A call at a wait that is safe stays so whatever others do. -/
theorem Safe.later {me : Nat} {m : Marked ε α} {h : Heap} {l : Log ε} (hs : Safe I me m h l)
    (hwaits : m.Waits) (hover : ¬ m.Over) : I h l ∧ Later I me l (Safe I me m) := by
  have hlater : ∀ {l'} {Q : Heap → Log ε → Prop}, Later I me l Q →
      marksOf me l' = marksOf me l → Later I me l' Q :=
    fun hq hmarks h'' l'' hi heq ↦ hq h'' l'' hi (heq.trans hmarks)
  cases m with
  | done a => exact absurd trivial hover
  | crash => exact absurd trivial hover
  | act c k => exact hwaits.elim
  | mark e k => exact hwaits.elim
  | release m k => exact hwaits.elim
  | pause k => exact ⟨hs.1, fun h' l' hi heq ↦ ⟨hi, hlater hs.2 heq⟩⟩
  | sleep wake k => exact ⟨hs.1, fun h' l' hi heq ↦ ⟨hi, hlater hs.2 heq⟩⟩
  | pop s keys deadline seen k => exact ⟨hs.1, fun h' l' hi heq ↦ ⟨hi, hlater hs.2 heq⟩⟩
  | join g key fill k =>
    exact ⟨hs.1, fun h' l' hi heq ↦ ⟨hi, hs.2.1, fun o ↦ hlater (hs.2.2 o) heq⟩⟩
  | await i k => exact ⟨hs.1, fun h' l' hi heq ↦ ⟨hi, fun o ↦ hlater (hs.2 o) heq⟩⟩
  | acquire m k => exact ⟨hs.1, fun h' l' hi heq ↦ ⟨hi, hlater hs.2 heq⟩⟩
  | loopEnd r deadline k => exact ⟨hs.1, fun h' l' hi heq ↦ ⟨hi, hlater hs.2 heq⟩⟩

theorem exists_no_marks (me : Nat) (l : Log ε) : ∃ new, l = new ++ l ∧ ∀ x ∈ new, x.1 = me :=
  ⟨[], rfl, fun _ hx ↦ absurd hx List.not_mem_nil⟩

/-- A step of a call that is safe is a step of the call without its marks, and it ends where the
call is safe again, at a wait or at its end; the marks that it leaves are its own. -/
theorem Safe.halt {me : Nat} {m : Marked ε α} {h : Heap} {l : Log ε} (hs : Safe I me m h l) :
    let r := m.halt me h l
    m.call.halt me h = (r.heap, r.rest.call) ∧ r.rest.Waits ∧ Safe I me r.rest r.heap r.log ∧
      ∃ new, r.log = new ++ l ∧ ∀ x ∈ new, x.1 = me := by
  induction m generalizing h l with
  | done a => exact ⟨rfl, trivial, hs, exists_no_marks me l⟩
  | crash => exact ⟨rfl, trivial, hs, exists_no_marks me l⟩
  | act c k ih =>
    rcases hs with ⟨h', b, hc, hs⟩ | ⟨h', hc, hi⟩
    · have hcall : (act c k).call.halt me h = (k b).call.halt me h' :=
        Call.halt_bind_of_done hc _
      simp only [Marked.halt, hc]
      rw [hcall]
      exact ih b hs
    · have hcall : (act c k).call.halt me h = (h', .crash) := Call.halt_bind_of_crash hc _
      simp only [Marked.halt, hc]
      rw [hcall]
      exact ⟨rfl, trivial, hi, exists_no_marks me l⟩
  | mark e k ih =>
    obtain ⟨hcall, hwaits, hsafe, new, hnew, hmine⟩ := ih hs
    refine ⟨hcall, hwaits, hsafe, new ++ [(me, e h)], ?_, ?_⟩
    · rw [List.append_assoc]
      exact hnew
    · intro x hx
      rcases List.mem_append.mp hx with hx | hx
      · exact hmine x hx
      · rw [List.mem_singleton.mp hx]
  | pause k => exact ⟨rfl, trivial, hs, exists_no_marks me l⟩
  | sleep wake k ih =>
    simp only [Marked.halt, call, Call.halt]
    split_ifs with hdue
    · exact ih (hs.2.now hs.1)
    · exact ⟨rfl, trivial, hs, exists_no_marks me l⟩
  | pop s keys deadline seen k ih =>
    obtain ⟨hi, hlater⟩ := hs
    obtain ⟨hsome, hfault, hnone, -⟩ := hlater.now hi
    -- where nothing is there to be taken, the call gives up or waits on
    have hvain : ∀ h' seen', I h' l →
        let r := if Call.due deadline h'.now then (k (.ok none)).halt me h' l
          else ⟨h', l, pop s keys deadline seen' k⟩
        (if Call.due deadline h'.now then (k (.ok none)).call.halt me h'
          else (h', (pop s keys deadline seen' k).call)) = (r.heap, r.rest.call) ∧
            r.rest.Waits ∧ Safe I me r.rest r.heap r.log ∧
              ∃ new, r.log = new ++ l ∧ ∀ x ∈ new, x.1 = me := by
      intro h' seen' hi'
      dsimp only
      by_cases hdue : Call.due deadline h'.now = true
      · rw [if_pos hdue, if_pos hdue]
        exact ih _ (hlater.now hi').2.2.2
      · rw [if_neg hdue, if_neg hdue]
        exact ⟨rfl, trivial, ⟨hi', hlater⟩, exists_no_marks me l⟩
    simp only [Marked.halt, call, Call.halt]
    by_cases hseen : seen = some (h.tiers.store s).pushes
    · simp only [if_pos hseen]
      exact hvain h seen hi
    · simp only [if_neg hseen]
      cases htried : (Store.tryPop h.now keys (h.tiers.store s)).1 with
      | ok x =>
        cases x with
        | some x => exact ih _ (hsome x htried)
        | none => exact hvain _ (some (h.tiers.store s).pushes) (hnone (Or.inl htried))
      | fault f => exact ih _ (hfault f htried)
      | overflow => exact hvain _ (some (h.tiers.store s).pushes) (hnone (Or.inr htried))
  | join g key fill k => exact ⟨rfl, trivial, hs, exists_no_marks me l⟩
  | await i k => exact ⟨rfl, trivial, hs, exists_no_marks me l⟩
  | acquire lock k ih =>
    obtain ⟨hi, hlater⟩ := hs
    obtain ⟨henqueued, hhead⟩ := hlater.now hi
    simp only [Marked.halt, call, Call.halt]
    split_ifs with hfirst
    · exact ih (hhead hfirst)
    · exact ⟨rfl, trivial, ⟨henqueued, hlater⟩, exists_no_marks me l⟩
  | release lock k ih => exact ih hs
  | loopEnd r deadline k ih =>
    obtain ⟨hi, hlater⟩ := hs
    obtain ⟨hended, hdue⟩ := hlater.now hi
    simp only [Marked.halt, call, Call.halt]
    split_ifs with h₁ h₂
    · exact ih _ (hended h₁)
    · exact ih _ (hdue h₂)
    · exact ⟨rfl, trivial, ⟨hi, hlater⟩, exists_no_marks me l⟩

end Safe

end Marked

/-- An operation with marks, given what follows it, is the operation itself where the marks are left
out. -/
def Call.Underlies {ε β : Type} (c : Call β)
    (m : ∀ {α : Type}, (β → Marked ε α) → Marked ε α) : Prop :=
  ∀ {α : Type} (k : β → Marked ε α), (m k).call = c.bind fun b ↦ (k b).call

end TwoTier
