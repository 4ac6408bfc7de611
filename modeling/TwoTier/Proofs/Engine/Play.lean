import TwoTier.Proofs.Engine.Marked
import TwoTier.Proofs.Engine.Schedule

/-!
# Worlds whose tasks leave marks

A `Play` is a world together with what its tasks and fills have yet to do as marked calls, and with
the log of the marks they have left. Its moves are those of the world (`Play.world_apply`): marks
are seen by nobody.

An invariant of the heap and the log that every task keeps (`Marked.Safe`), and that survives what
is not the step of a task (`Play.Kept`), holds after any moves (`Play.Reachable.sound`).
-/

set_option autoImplicit false
set_option relaxedAutoImplicit false

namespace TwoTier

/-- A world, what its threads have yet to do as marked calls, and the log of their marks. -/
structure Play (ε ρ : Type) where
  /-- The world. -/
  world : World ρ
  /-- What the tasks have yet to do. -/
  task : Nat → Marked ε ρ
  /-- What the fills have yet to do. -/
  fill : Nat → Marked ε (Answer String)
  /-- The marks left. -/
  log : Log ε

namespace Play

variable {ε ρ α : Type}

/-- What a call whose wait is over does next. -/
def resume (p : Play ε ρ) : Marked ε α → Marked ε α
  | .pause k => k
  | .await i k =>
    match p.world.outcomes[i]? with
    | some o => k o
    | none => .await i k
  | m => m

/-- What a halted call has yet to do once its wait for a fill has begun. -/
def entered (r : Halted ε α) : Marked ε α :=
  match r.rest with
  | .join g key _ k => .await (Call.fillOf r.heap g key) k
  | m => m

/-- The fills after a call has halted: one more, where the call starts it. -/
def withFill (fill : Nat → Marked ε (Answer String)) (r : Halted ε α) :
    Nat → Marked ε (Answer String) :=
  match r.rest with
  | .join g key m _ =>
    if ((r.heap.guard g).inFlight[key]?).isSome then fill
    else fun j ↦ if j = r.heap.nextThread then .pause m else fill j
  | _ => fill

/-- What can happen next. -/
inductive Move (ε ρ : Type) : Type 1 where
  /-- A thread takes a step. -/
  | run (th : Thread)
  /-- A task is made. -/
  | spawn (held : List Held) (code : Marked ε ρ)
  /-- A task is cancelled. -/
  | abort (task : Nat)
  /-- The clock moves on. -/
  | advance (t : Nat)
  /-- Names are given and taken away. -/
  | hold (named : List Held) (guarded : List (Nat × List Held))

/-- The move without marks. -/
def Move.plain : Move ε ρ → TwoTier.Move ρ
  | run th => .run th
  | spawn held code => .spawn held code.call
  | abort i => .abort i
  | advance t => .advance t
  | hold named guarded => .hold named guarded

/-- The play after something has happened. -/
def apply (p : Play ε ρ) : Move ε ρ → Play ε ρ
  | .run (.task i) =>
    match p.world.tasks.find? fun t ↦ t.id = i with
    | some _ =>
      let r := (p.resume (p.task i)).halt i p.world.heap p.log
      { world := p.world.run (.task i)
        task := fun j ↦ if j = i then entered r else p.task j
        fill := withFill p.fill r
        log := r.log }
    | none => p
  | .run (.fill i) =>
    match p.world.fills.find? fun f ↦ f.id = i with
    | some _ =>
      let r := (p.resume (p.fill i)).halt i p.world.heap p.log
      { world := p.world.run (.fill i)
        task := p.task
        fill := fun j ↦ if j = i then entered r else withFill p.fill r j
        log := r.log }
    | none => p
  | .run (.loop r) => { p with world := p.world.run (.loop r) }
  | .spawn held code =>
    { p with
      world := (p.world.spawn held code.call).2
      task := fun j ↦ if j = p.world.heap.nextThread then code else p.task j }
  | m => { p with world := p.world.apply m.plain }

/-- The moves of a play are the moves of its world. -/
theorem world_apply (p : Play ε ρ) (m : Move ε ρ) :
    (p.apply m).world = p.world.apply m.plain := by
  cases m with
  | run th =>
    cases th with
    | task i =>
      unfold apply Move.plain World.apply World.run
      dsimp only
      cases h : p.world.tasks.find? fun t ↦ t.id = i with
      | some t => rfl
      | none => rfl
    | fill i =>
      unfold apply Move.plain World.apply World.run
      dsimp only
      cases h : p.world.fills.find? fun f ↦ f.id = i with
      | some f => rfl
      | none => rfl
    | loop r => rfl
  | _ => rfl

/-! ### Which plays are looked at -/

/-- What is fixed about some plays: the calls that tasks may be made of, what has a name all the
time, and whether tasks are cancelled. -/
structure Rules (ε ρ : Type) where
  /-- The calls that tasks may be made of. -/
  call : Marked ε ρ → Prop
  /-- What has a name all the time. -/
  named : List Held
  /-- Whether tasks are cancelled. -/
  aborts : Prop

/-- Whether a move may be made: a thread that takes a step can go on, and the rules are kept. -/
def Allowed (rules : Rules ε ρ) (p : Play ε ρ) : Move ε ρ → Prop
  | .run th => ∃ since, (since, th) ∈ p.world.candidates
  | .spawn _ code => rules.call code
  | .abort _ => rules.aborts
  | .advance _ => True
  | .hold named _ => rules.named ⊆ named

/-- A play in which nothing has been done yet: the tiers are as they are, at some moment. -/
def opening (now : Nat) (tiers : Tiers) (named : List Held) : Play ε ρ :=
  { world := { World.initial with
      heap := { Heap.initial with now := now, tiers := tiers }
      named := named }
    task := fun _ ↦ .crash
    fill := fun _ ↦ .crash
    log := [] }

/-- The plays that are reached from a first one. -/
inductive Reachable (rules : Rules ε ρ) (p₀ : Play ε ρ) : Play ε ρ → Prop
  | start : Reachable rules p₀ p₀
  | move {p : Play ε ρ} (m : Move ε ρ) (hm : p.Allowed rules m) (h : Reachable rules p₀ p) :
      Reachable rules p₀ (p.apply m)

/-! ### Invariants -/

section Sound

variable (I : Heap → Log ε → Prop)

/-- Whether a call begins with something that takes its turn, and not with a mark. -/
def Opens : Marked ε α → Prop
  | .mark _ _ => False
  | .act (.done _) _ => False
  | _ => True

/-- A thread will keep the invariant when its turn comes. -/
structure Ready (l : Log ε) (me : Nat) (code : Call α) (m : Marked ε α) : Prop where
  code_eq : code = m.call
  opens : Opens m
  later : Marked.Later I me l (Marked.Safe I me m)

/-- The invariant holds in a play, and all threads will keep it. -/
structure Sound (named : List Held) (p : Play ε ρ) : Prop where
  inv : I p.world.heap p.log
  numbered : p.world.Numbered
  marks : ∀ x ∈ p.log, x.1 < p.world.heap.nextThread
  tasks : ∀ t ∈ p.world.tasks, Ready I p.log t.id t.code (p.task t.id)
  fills : ∀ f ∈ p.world.fills, Ready I p.log f.id f.code (p.fill f.id)
  named_subset : named ⊆ p.world.named

/-- What is no step of a thread keeps the invariant, while some things have a name. -/
structure Steady (named : List Held) : Prop where
  thread : ∀ {h l} gs n, I h l → I { h with guards := gs, nextThread := n } l
  clock : ∀ {h l t}, h.now ≤ t → I h l → I { h with now := t } l
  release : ∀ {h l held}, named ⊆ held → I h l →
    I { h with tiers := h.tiers.release held } l

/-- What is not the step of a task or a fill keeps the invariant, while some things have a name. -/
structure Kept (named : List Held) : Prop extends Steady I named where
  loop : ∀ {h l r} n, r ∈ h.tiers.loops → h.tiers.loopReady r = true → I h l →
    I { h with tiers :=
      (h.tiers.stepLoop r).setLoop r { (h.tiers.stepLoop r).loop r with since := n } } l

variable {I}

theorem Ready.congr {l l' : Log ε} {me : Nat} {code : Call α} {m : Marked ε α}
    (h : Ready I l me code m) (hl : Marked.marksOf me l' = Marked.marksOf me l) :
    Ready I l' me code m :=
  ⟨h.code_eq, h.opens, fun h' l'' hi heq ↦ h.later h' l'' hi (heq.trans hl)⟩

/-- A call whose wait is over is safe, and goes on as the call without its marks does. -/
theorem Ready.resume {p : Play ε ρ} {me : Nat} {code : Call α} {m : Marked ε α}
    (h : Ready I p.log me code m) (hi : I p.world.heap p.log) :
    p.world.resume code = (p.resume m).call ∧
      Marked.Safe I me (p.resume m) p.world.heap p.log := by
  obtain ⟨rfl, hopens, hlater⟩ := h
  have hs := hlater.now hi
  cases m with
  | mark e k => exact hopens.elim
  | act c k =>
    refine ⟨?_, hs⟩
    -- code that ends in this step does not begin with a wait
    rcases hs with ⟨h', b, hc, -⟩ | ⟨h', hc, -⟩ <;> cases c <;>
      first | rfl | exact hopens.elim | cases hc
  | pause k => exact ⟨rfl, hs.2.now hi⟩
  | await i k =>
    simp only [World.resume, Marked.call, Play.resume]
    cases p.world.outcomes[i]? with
    | some o => exact ⟨rfl, (hs.2 o).now hi⟩
    | none => exact ⟨rfl, hs⟩
  | _ => exact ⟨rfl, hs⟩

/-- What a step of a thread leaves behind. -/
structure Stepped (I : Heap → Log ε → Prop) (me next : Nat) (r : Halted ε α) (p : Progress α)
    (fill : Nat → Marked ε (Answer String)) : Prop where
  /-- The call has ended, or waits and will keep the invariant. -/
  rest : (p.rest.conclusion?.isSome ∧ I (p.heap.leaveAll me) r.log) ∨
    (p.rest.conclusion? = none ∧ I p.heap r.log ∧ Ready I r.log me p.rest (entered r))
  /-- The fills that have been started will keep the invariant. -/
  fills : ∀ f ∈ p.fills, f.id = next ∧
    (Marked.marksOf next r.log = [] → Ready I r.log next f.code (withFill fill r next))
  /-- Other fills are as they were. -/
  others : ∀ j, j ≠ next → withFill fill r j = fill j

/-- A step of a safe call. -/
theorem stepped {named : List Held} (hI : Steady I named) {me : Nat} {m : Marked ε α} {h : Heap}
    {l : Log ε} (hs : Marked.Safe I me m h l) (fill : Nat → Marked ε (Answer String)) :
    Stepped I me h.nextThread (m.halt me h l) (m.call.exec me h []) fill ∧
      ∃ new, (m.halt me h l).log = new ++ l ∧ ∀ x ∈ new, x.1 = me := by
  obtain ⟨hcall, hwaits, hsafe, hnew⟩ := hs.halt
  have hnext : (m.halt me h l).heap.nextThread = h.nextThread := by
    have := (Call.halt_kept me m.call h).2.1
    rwa [hcall] at this
  refine ⟨?_, hnew⟩
  rw [Call.exec_eq_enter, hcall]
  generalize m.halt me h l = r at hwaits hsafe hnext
  obtain ⟨h', l', rest⟩ := r
  dsimp only at hwaits hsafe hnext ⊢
  -- a call that halts elsewhere than before a wait for a fill stays as it is
  have hstay : Call.enter [] (h', rest.call) = ⟨h', [], rest.call⟩ →
      entered ⟨h', l', rest⟩ = rest → withFill fill ⟨h', l', rest⟩ = fill →
      rest.call.conclusion? = none → Opens rest → ¬ rest.Over →
      Stepped I me h.nextThread ⟨h', l', rest⟩ (Call.enter [] (h', rest.call)) fill := by
    intro henter hentered hfill hconclusion hopens hover
    obtain ⟨hi, hlater⟩ := hsafe.later hwaits hover
    rw [henter]
    refine ⟨Or.inr ⟨hconclusion, hi, ?_⟩, fun f hf ↦ absurd hf List.not_mem_nil, fun j _ ↦ ?_⟩
    · rw [hentered]
      exact ⟨rfl, hopens, hlater⟩
    · rw [hfill]
  cases rest with
  | done a => exact ⟨Or.inl ⟨rfl, hsafe⟩, fun f hf ↦ absurd hf List.not_mem_nil, fun j _ ↦ rfl⟩
  | crash => exact ⟨Or.inl ⟨rfl, hsafe⟩, fun f hf ↦ absurd hf List.not_mem_nil, fun j _ ↦ rfl⟩
  | act c k => exact hwaits.elim
  | mark e k => exact hwaits.elim
  | release lock k => exact hwaits.elim
  | join g key m k =>
    obtain ⟨hi, hfill, hlater⟩ := hsafe
    have hready : ∀ i, Ready I l' me (.await i fun a ↦ (k a).call) (.await i k) := fun i ↦
      ⟨rfl, trivial, fun h'' l'' hi' heq ↦
        ⟨hi', fun o h₃ l₃ hi₃ heq₃ ↦ hlater o h₃ l₃ hi₃ (heq₃.trans heq)⟩⟩
    simp only [Marked.call, Call.enter]
    cases hflight : (h'.guard g).inFlight[key]? with
    | some i =>
      refine ⟨Or.inr ⟨rfl, hI.thread _ h'.nextThread hi, ?_⟩,
        fun f hf ↦ absurd hf List.not_mem_nil, fun j _ ↦ ?_⟩
      · simp only [entered, Call.fillOf, hflight, Option.getD_some]
        exact hready i
      · simp only [withFill, hflight, Option.isSome_some, if_true]
    | none =>
      have hstart := hI.thread (h'.guards.insert g ((h'.guard g).start key h'.nextThread))
        (h'.nextThread + 1) hi
      refine ⟨Or.inr ⟨rfl, hstart, ?_⟩, fun f hf ↦ ?_, fun j hj ↦ ?_⟩
      · simp only [entered, Call.fillOf, hflight, Option.getD_none]
        exact hready h'.nextThread
      · rw [List.nil_append] at hf
        rw [List.mem_singleton.mp hf]
        refine ⟨hnext, fun hmarks ↦ ?_⟩
        have hstarted : withFill fill ⟨h', l', .join g key m k⟩ h.nextThread = .pause m := by
          simp only [withFill, hflight, Option.isSome_none, Bool.false_eq_true, if_false, hnext,
            if_true]
        rw [hstarted]
        refine ⟨rfl, trivial, fun h'' l'' hi' heq ↦ ⟨hi', fun h₃ l₃ hi₃ heq₃ ↦ ?_⟩⟩
        exact hfill h.nextThread h₃ l₃ hi₃ ((heq₃.trans heq).trans hmarks)
      · simp only [withFill, hflight, Option.isSome_none, Bool.false_eq_true, if_false, hnext]
        rw [if_neg hj]
  | pause k => exact hstay rfl rfl rfl rfl trivial id
  | sleep wake k => exact hstay rfl rfl rfl rfl trivial id
  | pop s keys deadline seen k => exact hstay rfl rfl rfl rfl trivial id
  | await i k => exact hstay rfl rfl rfl rfl trivial id
  | acquire lock k => exact hstay rfl rfl rfl rfl trivial id
  | loopEnd r deadline k => exact hstay rfl rfl rfl rfl trivial id

variable {named : List Held} {p : Play ε ρ}

theorem marksOf_eq_nil {l : Log ε} {n : Nat} (h : ∀ x ∈ l, x.1 < n) : Marked.marksOf n l = [] := by
  refine List.filter_eq_nil_iff.mpr fun x hx ↦ ?_
  have := h x hx
  simp only [decide_eq_true_eq]
  omega

/-- After a step of one thread, all others are ready again, and so are the fills that it has
started. -/
theorem Sound.absorb (hs : Sound I named p) (hI : Steady I named) {me : Nat}
    (hme : me < p.world.heap.nextThread) {code : Call α} {m : Marked ε α}
    (hready : Ready I p.log me code m) :
    let r := (p.resume m).halt me p.world.heap p.log
    let q := (p.world.resume code).exec me p.world.heap []
    (∀ x ∈ r.log, x.1 < q.heap.nextThread) ∧
      (∀ th ≠ me, Marked.marksOf th r.log = Marked.marksOf th p.log) ∧
      (∀ f ∈ (p.world.absorb me q).fills, f.id ≠ me →
        Ready I r.log f.id f.code (withFill p.fill r f.id)) ∧
      ((q.rest.conclusion?.isSome ∧ I (q.heap.leaveAll me) r.log) ∨
        (q.rest.conclusion? = none ∧ I q.heap r.log ∧ Ready I r.log me q.rest (entered r))) := by
  intro r q
  obtain ⟨hcode, hsafe⟩ := hready.resume hs.inv
  obtain ⟨hstepped, new, hnew, hmine⟩ := stepped hI hsafe p.fill
  have hq : q = (p.resume m).call.exec me p.world.heap [] := by rw [← hcode]
  rw [← hq] at hstepped
  have hle : p.world.heap.nextThread ≤ q.heap.nextThread := Call.nextThread_le_exec _ _ _ _
  have hlt : ∀ x ∈ r.log, x.1 < p.world.heap.nextThread := by
    intro x hx
    change x ∈ ((p.resume m).halt me p.world.heap p.log).log at hx
    rw [hnew] at hx
    rcases List.mem_append.mp hx with hx | hx
    · rw [hmine x hx]
      exact hme
    · exact hs.marks x hx
  have hmarks : ∀ th ≠ me, Marked.marksOf th r.log = Marked.marksOf th p.log := by
    intro th hth
    change Marked.marksOf th ((p.resume m).halt me p.world.heap p.log).log = _
    rw [hnew]
    exact Marked.marksOf_append fun x hx ↦ by rw [hmine x hx]; exact hth.symm
  refine ⟨fun x hx ↦ Nat.lt_of_lt_of_le (hlt x hx) hle, hmarks, fun f hf hne ↦ ?_, hstepped.rest⟩
  rcases List.mem_append.mp hf with hf | hf
  · rw [hstepped.others f.id (Nat.ne_of_lt (hs.numbered.fill_lt f hf))]
    exact (hs.fills f hf).congr (hmarks f.id hne)
  · obtain ⟨f', hf', rfl⟩ := List.mem_map.mp hf
    obtain ⟨hid, hready'⟩ := hstepped.fills f' hf'
    change Ready I r.log f'.id f'.code (withFill p.fill r f'.id)
    rw [hid]
    exact hready' (marksOf_eq_nil hlt)

theorem inv_letGo (hI : Steady I named) {w : World ρ} {l : Log ε} (hi : I w.heap l)
    (hnamed : named ⊆ w.named) (held : List Held) : I (w.letGo held).heap l := by
  unfold World.letGo
  split
  · exact hi
  · refine hI.release (fun x hx ↦ ?_) hi
    exact List.mem_append_left _ (List.mem_append_left _ (hnamed hx))

theorem Sound.runTask (hs : Sound I named p) (hI : Steady I named) {t : Task ρ}
    (ht : (p.world.tasks.find? fun u ↦ u.id = t.id) = some t) :
    Sound I named (p.apply (.run (.task t.id))) := by
  have hmem := (World.mem_of_find? ht).1
  have hlt := hs.numbered.task_lt t hmem
  have hdisjoint := (hs.numbered.absorb t.id (p.world.resume t.code)).disjoint t hmem
  obtain ⟨hmarks, hothers, hfills, hrest⟩ := hs.absorb hI hlt (hs.tasks t hmem)
  have hnumbered := hs.numbered.apply (.run (.task t.id))
  have hnamed := World.named_run p.world (.task t.id)
  have hworld : p.world.run (.task t.id) =
      p.world.afterTask t ((p.world.resume t.code).exec t.id p.world.heap []) := by
    simp only [World.run, ht, World.runTask_eq]
  change (p.world.run (.task t.id)).Numbered at hnumbered
  simp only [apply, ht]
  rw [hworld] at hnumbered hnamed ⊢
  have hnext := World.nextThread_afterTask p.world t
    ((p.world.resume t.code).exec t.id p.world.heap [])
  generalize (p.world.resume t.code).exec t.id p.world.heap [] = q at *
  generalize (p.resume (p.task t.id)).halt t.id p.world.heap p.log = r at *
  refine ⟨?_, hnumbered, ?_, ?_, ?_, ?_⟩
  · unfold World.afterTask
    rcases hrest with ⟨hsome, hi⟩ | ⟨hnone, hi, -⟩
    · obtain ⟨c, hc⟩ := Option.isSome_iff_exists.mp hsome
      simp only [hc]
      refine inv_letGo hI ?_ ?_ t.held
      · simp only [World.withoutTask, World.absorb, hsome, if_true]
        exact hi
      · exact hs.named_subset
    · simp only [hnone, World.absorb, Option.isSome_none, Bool.false_eq_true, if_false]
      exact hi
  · dsimp only
    rw [hnext]
    exact hmarks
  · intro u hu
    unfold World.afterTask at hu
    rcases hrest with ⟨hsome, -⟩ | ⟨hnone, -, hready⟩
    · obtain ⟨c, hc⟩ := Option.isSome_iff_exists.mp hsome
      simp only [hc, World.tasks_letGo] at hu
      obtain ⟨hu, hne⟩ := List.mem_filter.mp hu
      have hne : u.id ≠ t.id := of_decide_eq_true hne
      dsimp only
      rw [if_neg hne]
      exact (hs.tasks u hu).congr (hothers u.id hne)
    · simp only [hnone] at hu
      obtain ⟨v, hv, rfl⟩ := List.mem_map.mp hu
      split_ifs with hid
      · dsimp only
        rw [hid, if_pos rfl]
        exact hready
      · dsimp only
        rw [if_neg hid]
        exact (hs.tasks v hv).congr (hothers v.id hid)
  · intro f hf
    rw [World.fills_afterTask] at hf
    exact hfills f hf (hdisjoint f hf).symm
  · dsimp only
    rw [hnamed]
    exact hs.named_subset

theorem Sound.runFill (hs : Sound I named p) (hI : Steady I named) {f : Fill}
    (hf : (p.world.fills.find? fun u ↦ u.id = f.id) = some f) :
    Sound I named (p.apply (.run (.fill f.id))) := by
  have hmem := (World.mem_fills_of_find? hf).1
  have hlt := hs.numbered.fill_lt f hmem
  obtain ⟨hmarks, hothers, hfills, hrest⟩ := hs.absorb hI hlt (hs.fills f hmem)
  have hnumbered := hs.numbered.apply (.run (.fill f.id))
  have hnamed := World.named_run p.world (.fill f.id)
  have hworld : p.world.run (.fill f.id) =
      p.world.afterFill f ((p.world.resume f.code).exec f.id p.world.heap []) := by
    simp only [World.run, hf, World.runFill_eq]
  change (p.world.run (.fill f.id)).Numbered at hnumbered
  simp only [apply, hf]
  rw [hworld] at hnumbered hnamed ⊢
  have hnext := World.nextThread_afterFill p.world f
    ((p.world.resume f.code).exec f.id p.world.heap [])
  generalize (p.world.resume f.code).exec f.id p.world.heap [] = q at *
  generalize (p.resume (p.fill f.id)).halt f.id p.world.heap p.log = r at *
  refine ⟨?_, hnumbered, ?_, ?_, ?_, ?_⟩
  · unfold World.afterFill
    rcases hrest with ⟨hsome, hi⟩ | ⟨hnone, hi, -⟩
    · obtain ⟨c, hc⟩ := Option.isSome_iff_exists.mp hsome
      simp only [hc]
      refine inv_letGo hI ?_ ?_ _
      · simp only [World.absorb, hsome, if_true]
        exact hI.thread _ (q.heap.leaveAll f.id).nextThread hi
      · exact hs.named_subset
    · simp only [hnone, World.absorb, Option.isSome_none, Bool.false_eq_true, if_false]
      exact hi
  · dsimp only
    rw [hnext]
    exact hmarks
  · intro t ht
    rw [World.tasks_afterFill] at ht
    exact (hs.tasks t ht).congr (hothers t.id (hs.numbered.disjoint t ht f hmem))
  · intro u hu
    unfold World.afterFill at hu
    rcases hrest with ⟨hsome, -⟩ | ⟨hnone, -, hready⟩
    · obtain ⟨c, hc⟩ := Option.isSome_iff_exists.mp hsome
      simp only [hc, World.fills_letGo] at hu
      obtain ⟨hu, hne⟩ := List.mem_filter.mp hu
      have hne : u.id ≠ f.id := of_decide_eq_true hne
      dsimp only
      rw [if_neg hne]
      exact hfills u hu hne
    · simp only [hnone] at hu
      obtain ⟨v, hv, rfl⟩ := List.mem_map.mp hu
      split_ifs with hid
      · dsimp only
        rw [hid, if_pos rfl]
        exact hready
      · dsimp only
        rw [if_neg hid]
        exact hfills v hv hid
  · dsimp only
    rw [hnamed]
    exact hs.named_subset

/-- What the rules ask of an invariant, but for the steps of receive loops: it survives what is no
step of a thread, tasks may be cancelled where the rules say so, and new tasks keep it. -/
structure Rules.Bear (rules : Rules ε ρ) (I : Heap → Log ε → Prop) : Prop where
  steady : Steady I rules.named
  aborts : rules.aborts → ∀ {h l} i, I h l → I (h.leaveAll i) l
  opens : ∀ {m}, rules.call m → Opens m
  safe : ∀ {m}, rules.call m → ∀ i h l, I h l → Marked.marksOf i l = [] → Marked.Safe I i m h l

/-- What the rules ask of an invariant: it survives what is not the step of a task or a fill, tasks
may be cancelled where the rules say so, and new tasks keep it. -/
structure Rules.Keep (rules : Rules ε ρ) (I : Heap → Log ε → Prop) : Prop where
  kept : Kept I rules.named
  aborts : rules.aborts → ∀ {h l} i, I h l → I (h.leaveAll i) l
  opens : ∀ {m}, rules.call m → Opens m
  safe : ∀ {m}, rules.call m → ∀ i h l, I h l → Marked.marksOf i l = [] → Marked.Safe I i m h l

theorem Rules.Keep.bear {rules : Rules ε ρ} (hI : rules.Keep I) : rules.Bear I :=
  ⟨hI.kept.toSteady, hI.aborts, hI.opens, hI.safe⟩

/-- Every move that the rules allow keeps the invariant, the steps of receive loops apart. -/
theorem Sound.apply_of_ne_loop {rules : Rules ε ρ} (hs : Sound I rules.named p) (hI : rules.Bear I)
    {m : Move ε ρ} (hm : p.Allowed rules m) (hloop : ∀ r, m ≠ .run (.loop r)) :
    Sound I rules.named (p.apply m) := by
  cases m with
  | run th =>
    cases th with
    | task i =>
      cases ht : p.world.tasks.find? fun t ↦ t.id = i with
      | some t =>
        obtain rfl := (World.mem_of_find? ht).2
        exact hs.runTask hI.steady ht
      | none =>
        simp only [Play.apply, ht]
        exact hs
    | fill i =>
      cases hf : p.world.fills.find? fun f ↦ f.id = i with
      | some f =>
        obtain rfl := (World.mem_fills_of_find? hf).2
        exact hs.runFill hI.steady hf
      | none =>
        simp only [Play.apply, hf]
        exact hs
    | loop r => exact absurd rfl (hloop r)
  | spawn held code =>
    have hnew := marksOf_eq_nil hs.marks
    refine ⟨hI.steady.thread p.world.heap.guards _ hs.inv,
      hs.numbered.apply (.spawn held code.call), fun x hx ↦ Nat.lt_succ_of_lt (hs.marks x hx),
      fun t ht ↦ ?_, hs.fills, hs.named_subset⟩
    rcases List.mem_append.mp ht with ht | ht
    · have hne : t.id ≠ p.world.heap.nextThread := Nat.ne_of_lt (hs.numbered.task_lt t ht)
      simp only [Play.apply, if_neg hne]
      exact hs.tasks t ht
    · rw [List.mem_singleton.mp ht]
      simp only [Play.apply, if_true]
      exact ⟨rfl, hI.opens hm, fun h l hi heq ↦ hI.safe hm _ h l hi (heq.trans hnew)⟩
  | abort i =>
    exact ⟨hI.aborts hm i hs.inv, hs.numbered.apply (.abort i), hs.marks,
      fun t ht ↦ hs.tasks t (List.mem_filter.mp ht).1, hs.fills, hs.named_subset⟩
  | advance t =>
    exact ⟨hI.steady.clock (Nat.le_max_left _ _) hs.inv, hs.numbered.apply (.advance t), hs.marks,
      hs.tasks, hs.fills, hs.named_subset⟩
  | hold names guarded =>
    refine ⟨hI.steady.release (fun x hx ↦ ?_) hs.inv, hs.numbered.apply (.hold names guarded),
      hs.marks, hs.tasks, hs.fills, hm⟩
    exact List.mem_append_left _ (List.mem_append_left _ (hm hx))

/-- Every move that the rules allow keeps the invariant. -/
theorem Sound.apply {rules : Rules ε ρ} (hs : Sound I rules.named p) (hI : rules.Keep I)
    {m : Move ε ρ} (hm : p.Allowed rules m) : Sound I rules.named (p.apply m) := by
  by_cases hloop : ∃ r, m = .run (.loop r)
  · obtain ⟨r, rfl⟩ := hloop
    obtain ⟨since, hcandidate⟩ := hm
    obtain ⟨hmem, hready⟩ := World.mem_loops_of_candidate hcandidate
    exact ⟨hI.kept.loop p.world.turn hmem hready hs.inv, hs.numbered.apply (.run (.loop r)),
      hs.marks, hs.tasks, hs.fills, hs.named_subset⟩
  · exact hs.apply_of_ne_loop hI.bear hm fun r hr ↦ hloop ⟨r, hr⟩

theorem sound_opening {rules : Rules ε ρ} {now : Nat} {tiers : Tiers}
    (hi : I { Heap.initial with now := now, tiers := tiers } []) :
    Sound I rules.named (opening now tiers rules.named : Play ε ρ) where
  inv := hi
  numbered := ⟨fun _ ht ↦ absurd ht List.not_mem_nil, fun _ hf ↦ absurd hf List.not_mem_nil,
    fun _ ht ↦ absurd ht List.not_mem_nil⟩
  marks _ hx := absurd hx List.not_mem_nil
  tasks _ ht := absurd ht List.not_mem_nil
  fills _ hf := absurd hf List.not_mem_nil
  named_subset _ hx := hx

/-- An invariant that holds at first and that the rules keep holds in every play that is reached. -/
theorem Reachable.sound {rules : Rules ε ρ} {p₀ p : Play ε ρ} (h : Reachable rules p₀ p)
    (hI : rules.Keep I) (h₀ : Sound I rules.named p₀) : Sound I rules.named p := by
  induction h with
  | start => exact h₀
  | move m hm _ ih => exact ih.apply hI hm

end Sound

end Play

end TwoTier
