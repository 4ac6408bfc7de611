import TwoTier.Proofs.Guard.Run
import TwoTier.Proofs.Server.Standing
import TwoTier.Proofs.Server.Tally

/-!
# Calls and the fills that they turn to

Whatever the tasks that use a connected store do, and however their steps follow one another, the
records of the threads fit together (`Remote.Recorded`): a call that has turned to the fills of a
key has turned to one that is under way or has ended as it had settled, a fill has begun for one
call that found none in flight, and a call is answered with the outcome of the very fill to which it
has turned.

A step of a thread changes its own record, the fills that it starts, and its own outcome where it is
a fill that ends (`Remote.Onward`). That is all that is needed for the records to fit together again
(`Remote.Recorded.onward`).
-/

set_option autoImplicit false
set_option relaxedAutoImplicit false

namespace TwoTier

namespace Remote

variable {s : ServerHandle} {ρ α : Type} {p p' : Play Event ρ}

/-- What a fill of a key has come to: what it has settled on, or a failure where it could not go on
before its fetch had ended. -/
def Yields (key : String) (own : List Event) (o : Answer String) : Prop :=
  .began key ∈ own ∧ ((∃ key' before, own = .settled key' o :: before) ∨
    (o = .error .fillFailed ∧ ∀ key' r, .fetched key' r ∉ own))

/-- A fill of the store for a key is under way, or has ended with what it has come to. -/
def Flown (s : ServerHandle) (p : Play Event ρ) (key : String) (i : Nat) : Prop :=
  (∃ f ∈ p.world.fills, f.id = i ∧ f.guard = s.guard ∧ f.key = key) ∨
    ∃ o, p.world.outcomes[i]? = some o ∧ Yields key (recordOf i p.log) o

/-- The records of the threads fit together. -/
structure Recorded (s : ServerHandle) (p : Play Event ρ) : Prop where
  /-- Every thread keeps to the rules. -/
  lawful : ∀ th, Lawful (recordOf th p.log)
  /-- All that has come is dealt with. -/
  still : ∀ th, Still (recordOf th p.log)
  /-- Calls turn to fills that are under way, and that end as they settle. -/
  turned : ∀ th key flight next, .turned key flight next ∈ recordOf th p.log →
    Flown s p key (flight.getD next)
  /-- A fill begins for a call that has found none in flight. -/
  began : ∀ i key, .began key ∈ recordOf i p.log → ∃ th, .turned key none i ∈ recordOf th p.log
  /-- A call is answered by the fill to which it has turned. -/
  filled : ∀ th key o flight next before,
    .filled key o :: .turned key flight next :: before <:+ recordOf th p.log →
      p.world.outcomes[flight.getD next]? = some o

/-! ### What a step of a thread changes -/

/-- How a play goes on with a step of a thread, as far as records and fills are concerned: `first`
is with what the step begins, `newer` what it leaves on record after that. -/
structure Onward (s : ServerHandle) (p p' : Play Event ρ) (me : Nat) (first newer : List Event) :
    Prop where
  log_eq : p'.log = newer.map (Prod.mk me) ++ (first.map (Prod.mk me) ++ p.log)
  lawful : Lawful (recordOf me p.log) → Lawful (newer ++ (first ++ recordOf me p.log))
  still : Still (newer ++ (first ++ recordOf me p.log))
  unfilled : ∀ key o, .filled key o ∉ newer
  unbegun : ∀ key, .began key ∉ newer
  turned : ∀ {key flight next}, .turned key flight next ∈ newer →
    flight = (p.world.heap.guard s.guard).inFlight[key]? ∧ next = p.world.heap.nextThread ∧
      (flight = none → ∃ f ∈ p'.world.fills, f.id = next ∧ f.guard = s.guard ∧ f.key = key)
  begins : ∃ key?, Prelude p key? (recordOf me p.log) first ∧
    ∀ key, key? = some key → ∃ th, .turned key none me ∈ recordOf th p.log
  outcomes : ∀ {i o}, p.world.outcomes[i]? = some o → i ≠ me ∧ p'.world.outcomes[i]? = some o
  fills : ∀ f ∈ p.world.fills, f.guard = s.guard → Flown s p' f.key f.id

namespace Onward

variable {me : Nat} {first newer : List Event}

theorem record_me (h : Onward s p p' me first newer) :
    recordOf me p'.log = newer ++ (first ++ recordOf me p.log) := by
  rw [h.log_eq, recordOf_new, recordOf_new]

theorem record_of_ne (h : Onward s p p' me first newer) {th : Nat} (hth : th ≠ me) :
    recordOf th p'.log = recordOf th p.log := by
  rw [h.log_eq, recordOf_of_ne hth, recordOf_of_ne hth]

/-- Records only grow. -/
theorem mem (h : Onward s p p' me first newer) {th : Nat} {e : Event} (he : e ∈ recordOf th p.log) :
    e ∈ recordOf th p'.log := by
  rw [h.log_eq]
  exact mem_recordOf_append (mem_recordOf_append he _) _

/-- An event on record was there before, or is one of the thread that has taken the step. -/
theorem mem_or (h : Onward s p p' me first newer) {th : Nat} {e : Event}
    (he : e ∈ recordOf th p'.log) : e ∈ recordOf th p.log ∨ th = me ∧ (e ∈ newer ∨ e ∈ first) := by
  by_cases hth : th = me
  · subst hth
    rw [h.record_me] at he
    rcases List.mem_append.mp he with he | he
    · exact Or.inr ⟨rfl, Or.inl he⟩
    · rcases List.mem_append.mp he with he | he
      · exact Or.inr ⟨rfl, Or.inr he⟩
      · exact Or.inl he
  · rw [h.record_of_ne hth] at he
    exact Or.inl he

/-- What is under way stays so or ends, and what has ended has ended. -/
theorem flown (h : Onward s p p' me first newer) {key : String} {i : Nat}
    (hflown : Flown s p key i) : Flown s p' key i := by
  rcases hflown with ⟨f, hf, rfl, hguard, rfl⟩ | ⟨o, ho, hyields⟩
  · exact h.fills f hf hguard
  · obtain ⟨hne, ho'⟩ := h.outcomes ho
    rw [← h.record_of_ne hne] at hyields
    exact Or.inr ⟨o, ho', hyields⟩

end Onward

/-- What ends with an answer by a fill is older than what comes without one. -/
theorem suffix_of_unfilled {newer older rest : List Event} {key : String} {o : Answer String}
    (hnone : ∀ key o, .filled key o ∉ newer) (h : .filled key o :: rest <:+ newer ++ older) :
    .filled key o :: rest <:+ older := by
  induction newer with
  | nil => exact h
  | cons e newer ih =>
    rcases List.suffix_cons_iff.mp h with heq | h
    · obtain ⟨rfl, -⟩ := List.cons.inj heq
      exact absurd List.mem_cons_self (hnone key o)
    · exact ih (fun key o hmem ↦ hnone key o (List.mem_cons_of_mem _ hmem)) h

/-- Records fit together after a step of a thread where they did before. -/
theorem Recorded.onward (hr : Recorded s p) {me : Nat} {first newer : List Event}
    (h : Onward s p p' me first newer)
    (hflight : ∀ key i, (p.world.heap.guard s.guard).inFlight[key]? = some i →
      ∃ f ∈ p.world.fills, f.id = i ∧ f.guard = s.guard ∧ f.key = key) : Recorded s p' where
  lawful th := by
    by_cases hth : th = me
    · rw [hth, h.record_me]
      exact h.lawful (hr.lawful me)
    · rw [h.record_of_ne hth]
      exact hr.lawful th
  still th := by
    by_cases hth : th = me
    · rw [hth, h.record_me]
      exact h.still
    · rw [h.record_of_ne hth]
      exact hr.still th
  turned th key flight next hmem := by
    rcases h.mem_or hmem with hmem | ⟨-, hmem | hmem⟩
    · exact h.flown (hr.turned th key flight next hmem)
    · obtain ⟨hat, -, hstarted⟩ := h.turned hmem
      cases flight with
      | none => exact Or.inl (hstarted rfl)
      | some i => exact h.flown (Or.inl (hflight key i hat.symm))
    · obtain ⟨key?, hfirst, -⟩ := h.begins
      cases hfirst <;> simp at hmem
  began i key hmem := by
    rcases h.mem_or hmem with hmem | ⟨rfl, hmem | hmem⟩
    · obtain ⟨th, hth⟩ := hr.began i key hmem
      exact ⟨th, h.mem hth⟩
    · exact absurd hmem (h.unbegun key)
    · obtain ⟨key?, hfirst, hstart⟩ := h.begins
      cases hfirst with
      | nothing => exact absurd hmem List.not_mem_nil
      | filled => cases List.mem_singleton.mp hmem
      | began hkey =>
        cases List.mem_singleton.mp hmem
        obtain ⟨th, hth⟩ := hstart key hkey
        exact ⟨th, h.mem hth⟩
  filled th key o flight next before hsuffix := by
    by_cases hth : th = me
    · rw [hth, h.record_me] at hsuffix
      have hsuffix := suffix_of_unfilled h.unfilled hsuffix
      obtain ⟨key?, hfirst, -⟩ := h.begins
      rcases hfirst.filled_suffix hsuffix with ho | hsuffix
      · exact (h.outcomes ho).2
      · exact (h.outcomes (hr.filled me key o flight next before hsuffix)).2
    · rw [h.record_of_ne hth] at hsuffix
      exact (h.outcomes (hr.filled th key o flight next before hsuffix)).2

/-! ### Steps of tasks and fills -/

/-- How a fill stands: one of the store has begun or will, for a call that has found none in flight.
-/
structure Fares (s : ServerHandle) (fill : Nat → Marked Event (Answer String)) (l : Log Event)
    (f : Fill) : Prop where
  ours : f.guard = s.guard → Tended s f.key (fill f.id) (recordOf f.id l) ∧
    ∃ th, .turned f.key none f.id ∈ recordOf th l
  others : f.guard ≠ s.guard → Placed s anyEnd (fill f.id) (recordOf f.id l)

/-- All threads keep to the rules. -/
structure Manned (s : ServerHandle) (p : Play Event ρ) : Prop where
  tasks : ∀ t ∈ p.world.tasks, p.world.outcomes[t.id]? = none ∧
    Placed s anyEnd (p.task t.id) (recordOf t.id p.log)
  fills : ∀ f ∈ p.world.fills, Fares s p.fill p.log f

/-- The records fit together, and all threads keep to the rules. -/
structure Linked (s : ServerHandle) (p : Play Event ρ) : Prop extends Recorded s p, Manned s p where
  agrees : ∃ es, Guard.Agrees p.world es fun _ ↦ True

/-- A fill that takes no step stands where it stood. -/
theorem Fares.congr {fill fill' : Nat → Marked Event (Answer String)} {l new : Log Event} {f : Fill}
    (h : Fares s fill l f) (hfill : fill' f.id = fill f.id)
    (hrecord : recordOf f.id (new ++ l) = recordOf f.id l) : Fares s fill' (new ++ l) f where
  ours hguard := by
    obtain ⟨htended, th, hth⟩ := h.ours hguard
    rw [hfill, hrecord]
    exact ⟨htended, th, mem_recordOf_append hth new⟩
  others hguard := by
    rw [hfill, hrecord]
    exact h.others hguard

section Step

variable {hits misses me : Nat} {code : Call α} {m : Marked Event α}

/-- The step of a thread that keeps the account is a step of the marked call. -/
theorem exec_eq (hs : Play.Sound (Tally s hits misses) [] p)
    (hready : Play.Ready (Tally s hits misses) p.log me code m) :
    let r := (p.resume m).halt me p.world.heap p.log
    (p.world.resume code).exec me p.world.heap [] = Call.enter [] (r.heap, r.rest.call) ∧
      r.rest.Waits ∧ r.heap.guards = p.world.heap.guards ∧
      r.heap.nextThread = p.world.heap.nextThread := by
  intro r
  obtain ⟨hcode, hsafe⟩ := hready.resume hs.inv
  obtain ⟨hhalt, hwaits, -, -⟩ := hsafe.halt
  obtain ⟨hguards, hnext, -⟩ := Call.halt_kept me (p.resume m).call p.world.heap
  rw [hhalt] at hguards hnext
  refine ⟨?_, hwaits, hguards, hnext⟩
  rw [hcode, Call.exec_eq_enter, hhalt]

/-- A call that has ended has no more to do. -/
theorem eq_of_conclusion {r : Halted Event α} (hwaits : r.rest.Waits) {c : Conclusion α}
    (hc : (Call.enter [] (r.heap, r.rest.call)).rest.conclusion? = some c) :
    (∃ a, r.rest = .done a ∧ c = .answer a) ∨ (r.rest = .crash ∧ c = .crash) := by
  obtain ⟨h, l, rest⟩ := r
  dsimp only at hwaits hc ⊢
  cases rest with
  | done a => exact Or.inl ⟨a, rfl, (Option.some.inj hc).symm⟩
  | crash => exact Or.inr ⟨rfl, (Option.some.inj hc).symm⟩
  | act c k => exact hwaits.elim
  | mark e k => exact hwaits.elim
  | release lock k => exact hwaits.elim
  | join g key fill k =>
    simp only [Marked.call, Call.enter] at hc
    split at hc <;> cases hc
  | _ => cases hc

/-- A step starts the fill for which its call waits, where none is in flight. -/
theorem started_eq {r : Halted Event α} (hwaits : r.rest.Waits) {f : Fill}
    (hf : f ∈ (Call.enter [] (r.heap, r.rest.call)).fills) :
    ∃ g key fill k, r.rest = .join g key fill k ∧ (r.heap.guard g).inFlight[key]? = none ∧
      f = ⟨r.heap.nextThread, g, key, .pause fill.call, 0⟩ := by
  obtain ⟨h, l, rest⟩ := r
  dsimp only at hwaits hf ⊢
  cases rest with
  | act c k => exact hwaits.elim
  | mark e k => exact hwaits.elim
  | release lock k => exact hwaits.elim
  | join g key fill k =>
    simp only [Marked.call, Call.enter] at hf
    split at hf
    · exact absurd hf List.not_mem_nil
    · rename_i hflight
      exact ⟨g, key, fill, k, rfl, hflight, List.mem_singleton.mp hf⟩
  | _ => exact absurd hf List.not_mem_nil

/-- A step starts no fill but the next thread. -/
theorem withFill_of_ne (fill : Nat → Marked Event (Answer String)) {r : Halted Event α} {j : Nat}
    (hj : j ≠ r.heap.nextThread) : Play.withFill fill r j = fill j := by
  unfold Play.withFill
  cases r.rest with
  | join g key m k =>
    dsimp only
    split_ifs
    · rfl
    · exact if_neg hj
  | _ => rfl

/-- The fill that is started has yet to take its first step. -/
theorem withFill_eq (fill : Nat → Marked Event (Answer String)) {r : Halted Event α} {g : Nat}
    {key : String} {m : Marked Event (Answer String)} {k : Answer String → Marked Event α}
    (hrest : r.rest = .join g key m k) (hnone : (r.heap.guard g).inFlight[key]? = none) :
    Play.withFill fill r r.heap.nextThread = .pause m := by
  simp only [Play.withFill, hrest, hnone, Option.isSome_none, Bool.false_eq_true, if_false, if_true]

theorem waits_entered {r : Halted Event α} (hwaits : r.rest.Waits) : (Play.entered r).Waits := by
  unfold Play.entered
  split
  · trivial
  · exact hwaits

variable {fin : List Event → Conclusion α → Prop} {first newer : List Event} {r : Halted Event α}
  (hleads : Leads s fin p.world.heap me (first.map (Prod.mk me) ++ p.log)
    (first ++ recordOf me p.log) newer r)
  (hguards : r.heap.guards = p.world.heap.guards)
  (hnext : r.heap.nextThread = p.world.heap.nextThread)

include hleads hguards hnext

/-- A call turns to the fills as it finds them, and starts one where none is in flight. -/
theorem Leads.started {key : String} {flight : Option Nat} {next : Nat}
    (hmem : .turned key flight next ∈ newer) :
    flight = (p.world.heap.guard s.guard).inFlight[key]? ∧ next = p.world.heap.nextThread ∧
      (flight = none → ∃ f ∈ (p.world.absorb me (Call.enter [] (r.heap, r.rest.call))).fills,
        f.id = next ∧ f.guard = s.guard ∧ f.key = key) := by
  obtain ⟨rfl, rfl, fill, k, hrest⟩ := hleads.turned hmem
  refine ⟨rfl, rfl, fun hnone ↦ ?_⟩
  have hflight : (r.heap.guard s.guard).inFlight[key]? = none := by
    unfold Heap.guard at hnone ⊢
    rw [hguards]
    exact hnone
  rw [hrest]
  simp only [Marked.call, Call.enter, hflight]
  refine ⟨⟨r.heap.nextThread, s.guard, key, .pause fill.call, p.world.turn⟩, ?_, hnext, rfl, rfl⟩
  exact List.mem_append_right _ (List.mem_map.mpr ⟨_, List.mem_singleton_self _, rfl⟩)

variable (hwaits : r.rest.Waits)

include hwaits

/-- The play goes on with a step where nothing that has ended changes, and where fills that were
under way, and the one that is started, are so or have ended. -/
theorem Leads.onward (hlog : p'.log = r.log)
    (hbegins : ∃ key?, Prelude p key? (recordOf me p.log) first ∧
      ∀ key, key? = some key → ∃ th, .turned key none me ∈ recordOf th p.log)
    (houtcomes : ∀ {i o}, p.world.outcomes[i]? = some o →
      i ≠ me ∧ p'.world.outcomes[i]? = some o)
    (hkept : ∀ f ∈ p.world.fills, f.guard = s.guard → Flown s p' f.key f.id)
    (hnew : ∀ f ∈ (p.world.absorb me (Call.enter [] (r.heap, r.rest.call))).fills,
      f.id = p.world.heap.nextThread → f ∈ p'.world.fills) : Onward s p p' me first newer where
  log_eq := hlog.trans hleads.log_eq
  lawful hown := by
    obtain ⟨key?, hfirst, -⟩ := hbegins
    exact hleads.lawful (hfirst.lawful hown)
  still := hleads.placed.still (waits_entered hwaits)
  unfilled := hleads.unfilled
  unbegun := hleads.unbegun
  turned hturned := by
    obtain ⟨hflight, hnumber, hstarted⟩ := hleads.started hguards hnext hturned
    refine ⟨hflight, hnumber, fun hnone ↦ ?_⟩
    obtain ⟨f, hf, hid, hours⟩ := hstarted hnone
    exact ⟨f, hnew f hf (hid.trans hnumber), hid, hours⟩
  begins := hbegins
  outcomes := houtcomes
  fills := hkept

variable (hs : Play.Sound (Tally s hits misses) [] p) (hme : me < p.world.heap.nextThread)

include hs hme

/-- The fill that a step has started stands well: it has yet to begin. -/
theorem Leads.fares_new {f : Fill} (hf : f ∈ (Call.enter [] (r.heap, r.rest.call)).fills) :
    Fares s (Play.withFill p.fill r) r.log f := by
  obtain ⟨g, key, fill, k, hrest, hnone, rfl⟩ := started_eq hwaits hf
  have hfill := withFill_eq p.fill hrest hnone
  have hempty : recordOf r.heap.nextThread r.log = [] := by
    have hne : r.heap.nextThread ≠ me := by omega
    rw [hleads.log_eq, recordOf_of_ne hne, recordOf_of_ne hne, hnext]
    exact recordOf_eq_nil hs.marks
  rcases hleads.joins hrest with ⟨hother, hconducts⟩ | ⟨rfl, hturned, fill', rfl, hconducts⟩
  · refine ⟨fun hguard ↦ absurd hguard hother, fun _ ↦ ?_⟩
    dsimp only
    rw [hfill, hempty]
    exact .goes (.pause trivial hconducts)
  · have hturned : .turned key none r.heap.nextThread ∈ newer := by
      unfold turnedAt Heap.guard at hturned
      rw [← hguards, ← hnext] at hturned
      unfold Heap.guard at hnone
      rwa [hnone] at hturned
    refine ⟨fun _ ↦ ⟨?_, me, ?_⟩, fun hguard ↦ absurd rfl hguard⟩
    · dsimp only
      rw [hfill, hempty]
      exact .fresh hconducts
    · rw [hleads.log_eq, recordOf_new]
      exact List.mem_append_left _ hturned

/-- All other fills stand well after a step, those that it has started included. -/
theorem Leads.fares (hl : Linked s p) {f : Fill}
    (hf : f ∈ (p.world.absorb me (Call.enter [] (r.heap, r.rest.call))).fills) (hne : f.id ≠ me) :
    Fares s (Play.withFill p.fill r) r.log f := by
  rcases List.mem_append.mp hf with hf | hf
  · have hlt := hs.numbered.fill_lt f hf
    have hlog : r.log = (newer.map (Prod.mk me) ++ first.map (Prod.mk me)) ++ p.log := by
      rw [hleads.log_eq, List.append_assoc]
    rw [hlog]
    refine (hl.fills f hf).congr (withFill_of_ne _ (by omega)) ?_
    rw [List.append_assoc, recordOf_of_ne hne, recordOf_of_ne hne]
  · obtain ⟨f', hf', rfl⟩ := List.mem_map.mp hf
    exact ⟨(hleads.fares_new hguards hnext hwaits hs hme hf').ours,
      (hleads.fares_new hguards hnext hwaits hs hme hf').others⟩

end Step

variable {hits misses : Nat}

/-- The play goes on with the step of a task. -/
theorem Linked.runTask (hl : Linked s p) (hs : Play.Sound (Tally s hits misses) [] p) {t : Task ρ}
    (ht : (p.world.tasks.find? fun u ↦ u.id = t.id) = some t) :
    (∃ first newer, Onward s p (p.apply (.run (.task t.id))) t.id first newer) ∧
      Manned s (p.apply (.run (.task t.id))) := by
  have hmem := (World.mem_of_find? ht).1
  have hlt := hs.numbered.task_lt t hmem
  have hdisjoint := (hs.numbered.absorb t.id (p.world.resume t.code)).disjoint t hmem
  obtain ⟨hexec, hwaits, hguards, hnext⟩ := exec_eq hs (hs.tasks t hmem)
  obtain ⟨houtcome, hplaced⟩ := hl.tasks t hmem
  obtain ⟨first, newer, hfirst, hleads⟩ := hplaced.leads none rfl hguards hnext
  have hworld : p.world.run (.task t.id) =
      p.world.afterTask t ((p.world.resume t.code).exec t.id p.world.heap []) := by
    simp only [World.run, ht, World.runTask_eq]
  simp only [Play.apply, ht]
  rw [hexec] at hworld hdisjoint
  rw [hworld]
  generalize (p.resume (p.task t.id)).halt t.id p.world.heap p.log = r at *
  refine ⟨⟨first, newer, ?_⟩, fun u hu ↦ ?_, fun f hf ↦ ?_⟩
  · refine hleads.onward hguards hnext hwaits rfl ⟨none, hfirst, fun key heq ↦ by cases heq⟩
      (fun {i o} ho ↦ ?_) (fun f hf hguard ↦ Or.inl ⟨f, ?_, rfl, hguard, rfl⟩) fun f hf _ ↦ ?_
    · rw [World.outcomes_afterTask]
      refine ⟨fun hi ↦ ?_, ho⟩
      rw [hi, houtcome] at ho
      cases ho
    · rw [World.fills_afterTask]
      exact List.mem_append_left _ hf
    · rw [World.fills_afterTask]
      exact hf
  · obtain ⟨v, hv, hid, -⟩ := World.exists_mem_of_mem_afterTask hu
    dsimp only
    rw [World.outcomes_afterTask, hleads.log_eq, hid]
    obtain ⟨hnone, hv⟩ := hl.tasks v hv
    refine ⟨hnone, ?_⟩
    by_cases hvt : v.id = t.id
    · rw [if_pos hvt, hvt, recordOf_new, recordOf_new]
      exact hleads.placed
    · rw [if_neg hvt, recordOf_of_ne hvt, recordOf_of_ne hvt]
      exact hv
  · rw [World.fills_afterTask] at hf
    exact hleads.fares hguards hnext hwaits hs hlt hl hf (hdisjoint f hf).symm

/-- A fill that ends has come to what it has settled on. -/
theorem yields_of_ended {r : Halted Event (Answer String)} {key : String} {own : List Event}
    {c : Conclusion (Answer String)} (hwaits : r.rest.Waits)
    (hc : (Call.enter [] (r.heap, r.rest.call)).rest.conclusion? = some c)
    (hplaced : Placed s fillEnd (Play.entered r) own) (hbegan : .began key ∈ own) :
    Yields key own c.outcome := by
  refine ⟨hbegan, ?_⟩
  obtain ⟨h, l, rest⟩ := r
  rcases eq_of_conclusion hwaits hc with ⟨a, hrest, rfl⟩ | ⟨hrest, rfl⟩
  · dsimp only at hrest
    subst hrest
    rcases hplaced.fin_done with ⟨key', a', before, rfl, heq⟩ | ⟨heq, -⟩
    · cases heq
      exact Or.inl ⟨key', before, rfl⟩
    · cases heq
  · dsimp only at hrest
    subst hrest
    rcases hplaced.fin_crash with ⟨key', a', before, -, heq⟩ | ⟨-, hnone⟩
    · cases heq
    · exact Or.inr ⟨rfl, hnone⟩

/-- What a step of a fill leads to. -/
structure Fares.Goes (s : ServerHandle) (p : Play Event ρ) (f : Fill) (first newer : List Event)
    (r : Halted Event (Answer String)) : Prop where
  begins : ∃ key?, Prelude p key? (recordOf f.id p.log) first ∧
    ∀ key, key? = some key → ∃ th, .turned key none f.id ∈ recordOf th p.log
  leads : ∃ fin, Leads s fin p.world.heap f.id (first.map (Prod.mk f.id) ++ p.log)
    (first ++ recordOf f.id p.log) newer r
  ours : f.guard = s.guard → .began f.key ∈ newer ++ (first ++ recordOf f.id p.log) ∧
    Placed s fillEnd (Play.entered r) (newer ++ (first ++ recordOf f.id p.log))
  others : f.guard ≠ s.guard →
    Placed s anyEnd (Play.entered r) (newer ++ (first ++ recordOf f.id p.log))

theorem Fares.leads {f : Fill} (hf : Fares s p.fill p.log f) {r : Halted Event (Answer String)}
    (hr : r = (p.resume (p.fill f.id)).halt f.id p.world.heap p.log)
    (hguards : r.heap.guards = p.world.heap.guards)
    (hnext : r.heap.nextThread = p.world.heap.nextThread) :
    ∃ first newer, Fares.Goes s p f first newer r := by
  by_cases hguard : f.guard = s.guard
  · obtain ⟨htended, hstart⟩ := hf.ours hguard
    obtain ⟨first, newer, hfirst, hbegan, hleads⟩ := htended.leads hr hguards hnext
    exact ⟨first, newer, ⟨some f.key, hfirst, fun key heq ↦ by cases heq; exact hstart⟩,
      ⟨fillEnd, hleads⟩, fun _ ↦ ⟨hbegan, hleads.placed⟩, fun hne ↦ absurd hguard hne⟩
  · obtain ⟨first, newer, hfirst, hleads⟩ := (hf.others hguard).leads none hr hguards hnext
    exact ⟨first, newer, ⟨none, hfirst, fun key heq ↦ by cases heq⟩, ⟨anyEnd, hleads⟩,
      fun heq ↦ absurd heq hguard, fun _ ↦ hleads.placed⟩

/-- A fill stands well again where it has not ended. -/
theorem Fares.Goes.fares {f : Fill} {first newer : List Event} {r : Halted Event (Answer String)}
    (hgoes : Fares.Goes s p f first newer r) (hf : Fares s p.fill p.log f)
    {fill : Nat → Marked Event (Answer String)} (hfill : fill f.id = Play.entered r)
    (code : Call (Answer String)) (since : Nat) :
    Fares s fill r.log { f with code := code, since := since } := by
  obtain ⟨fin, hleads⟩ := hgoes.leads
  have hrecord : recordOf f.id r.log = newer ++ (first ++ recordOf f.id p.log) := by
    rw [hleads.log_eq, recordOf_new, recordOf_new]
  refine ⟨fun hguard ↦ ?_, fun hguard ↦ ?_⟩ <;> dsimp only at hguard ⊢ <;> rw [hfill, hrecord]
  · obtain ⟨hbegan, hplaced⟩ := hgoes.ours hguard
    obtain ⟨-, th, hth⟩ := hf.ours hguard
    refine ⟨.begun hbegan hplaced, th, ?_⟩
    rw [hleads.log_eq]
    exact mem_recordOf_append (mem_recordOf_append hth _) _
  · exact hgoes.others hguard

section Fills

variable {f : Fill} {first newer : List Event} {r : Halted Event (Answer String)}

/-- A fill that has taken a step is still under way, or has ended with what it has come to. -/
theorem Fares.Goes.flown (hgoes : Fares.Goes s p f first newer r) (hwaits : r.rest.Waits)
    (hmem : f ∈ p.world.fills) (hguard : f.guard = s.guard) (hlog : p'.log = r.log)
    (hworld : p'.world = p.world.afterFill f (Call.enter [] (r.heap, r.rest.call))) :
    Flown s p' f.key f.id := by
  rcases World.outcome_or_mem_afterFill (p := Call.enter [] (r.heap, r.rest.call)) hmem with
    ⟨c, hc, heq⟩ | ⟨-, u, hu, hid, hguard', hkey⟩
  · obtain ⟨fin, hleads⟩ := hgoes.leads
    obtain ⟨hbegan, hplaced⟩ := hgoes.ours hguard
    refine Or.inr ⟨c.outcome, ?_, ?_⟩
    · rw [hworld, heq, Dict.getElem?_insert, if_pos rfl]
    · rw [hlog, hleads.log_eq, recordOf_new, recordOf_new]
      exact yields_of_ended hwaits hc hplaced hbegan
  · rw [← hworld] at hu
    exact Or.inl ⟨u, hu, hid, hguard'.trans hguard, hkey⟩

/-- The play goes on with the step of a fill. -/
theorem Fares.Goes.onward (hgoes : Fares.Goes s p f first newer r) (hwaits : r.rest.Waits)
    (hguards : r.heap.guards = p.world.heap.guards)
    (hnext : r.heap.nextThread = p.world.heap.nextThread) {es : List Guard.Event}
    (hagrees : Guard.Agrees p.world es fun _ ↦ True) (hmem : f ∈ p.world.fills)
    (hlt : f.id < p.world.heap.nextThread) (hlog : p'.log = r.log)
    (hworld : p'.world = p.world.afterFill f (Call.enter [] (r.heap, r.rest.call))) :
    Onward s p p' f.id first newer := by
  obtain ⟨fin, hleads⟩ := hgoes.leads
  refine hleads.onward hguards hnext hwaits hlog hgoes.begins (fun {i o} ho ↦ ?_)
    (fun g hg hguard ↦ ?_) fun g hg hid ↦ ?_
  · have hi : i ≠ f.id := by
      rintro rfl
      rw [hagrees.outcome_eq_none hmem] at ho
      cases ho
    rw [hworld, World.outcomes_afterFill_of_ne hmem hi]
    exact ⟨hi, ho⟩
  · by_cases hgf : g.id = f.id
    · obtain rfl := hagrees.fill_eq_of_id hg hmem hgf
      exact hgoes.flown hwaits hmem hguard hlog hworld
    · refine Or.inl ⟨g, ?_, rfl, hguard, rfl⟩
      rw [hworld]
      exact World.mem_afterFill_of_ne (List.mem_append_left _ hg) hgf
  · rw [hworld]
    exact World.mem_afterFill_of_ne hg (by omega)

end Fills

/-- The play goes on with the step of a fill. -/
theorem Linked.runFill (hl : Linked s p) (hs : Play.Sound (Tally s hits misses) [] p) {f : Fill}
    (hf : (p.world.fills.find? fun u ↦ u.id = f.id) = some f) :
    (∃ first newer, Onward s p (p.apply (.run (.fill f.id))) f.id first newer) ∧
      Manned s (p.apply (.run (.fill f.id))) := by
  have hmem := (World.mem_fills_of_find? hf).1
  have hlt := hs.numbered.fill_lt f hmem
  obtain ⟨es, hagrees⟩ := hl.agrees
  obtain ⟨hexec, hwaits, hguards, hnext⟩ := exec_eq hs (hs.fills f hmem)
  obtain ⟨first, newer, hgoes⟩ := (hl.fills f hmem).leads rfl hguards hnext
  obtain ⟨fin, hleads⟩ := hgoes.leads
  have hworld : p.world.run (.fill f.id) =
      p.world.afterFill f ((p.world.resume f.code).exec f.id p.world.heap []) := by
    simp only [World.run, hf, World.runFill_eq]
  simp only [Play.apply, hf]
  rw [hexec] at hworld
  rw [hworld]
  generalize (p.resume (p.fill f.id)).halt f.id p.world.heap p.log = r at *
  refine ⟨⟨first, newer, hgoes.onward hwaits hguards hnext hagrees hmem hlt rfl rfl⟩,
    fun t ht ↦ ?_, fun u hu ↦ ?_⟩
  · rw [World.tasks_afterFill] at ht
    have hne := hs.numbered.disjoint t ht f hmem
    obtain ⟨hnone, hplaced⟩ := hl.tasks t ht
    dsimp only
    rw [World.outcomes_afterFill_of_ne hmem hne, hleads.log_eq, recordOf_of_ne hne,
      recordOf_of_ne hne]
    exact ⟨hnone, hplaced⟩
  · dsimp only at hu ⊢
    rcases World.mem_or_eq_of_mem_afterFill hu with ⟨hu, hne⟩ | ⟨v, hv, hid, -, rfl⟩
    · have hfares := hleads.fares hguards hnext hwaits hs hlt hl hu hne
      exact ⟨fun hguard ↦ by rw [if_neg hne]; exact hfares.ours hguard,
        fun hguard ↦ by rw [if_neg hne]; exact hfares.others hguard⟩
    · have hvf : v = f := by
        rcases List.mem_append.mp hv with hv | hv
        · exact hagrees.fill_eq_of_id hv hmem hid
        · obtain ⟨v', hv', rfl⟩ := List.mem_map.mp hv
          obtain ⟨_, _, _, _, -, -, rfl⟩ := started_eq hwaits hv'
          dsimp only at hid
          omega
      subst hvf
      exact hgoes.fares (hl.fills v hmem) (if_pos rfl) _ _

/-! ### All moves -/

/-- What is no step of a task or a fill changes no record and no fill. -/
theorem Recorded.frame (hr : Recorded s p) (hlog : p'.log = p.log)
    (hfills : p'.world.fills = p.world.fills) (houtcomes : p'.world.outcomes = p.world.outcomes) :
    Recorded s p' where
  lawful := by
    rw [hlog]
    exact hr.lawful
  still := by
    rw [hlog]
    exact hr.still
  turned := by
    unfold Flown
    rw [hlog, hfills, houtcomes]
    exact hr.turned
  began := by
    rw [hlog]
    exact hr.began
  filled := by
    rw [hlog, houtcomes]
    exact hr.filled

/-- The threads are the same, but for one that may be new. -/
theorem Manned.frame (hm : Manned s p) (hlog : p'.log = p.log) (hfill : p'.fill = p.fill)
    (hfills : p'.world.fills = p.world.fills) (houtcomes : p'.world.outcomes = p.world.outcomes)
    (htasks : ∀ t ∈ p'.world.tasks, (t ∈ p.world.tasks ∧ p'.task t.id = p.task t.id) ∨
      p.world.outcomes[t.id]? = none ∧ Placed s anyEnd (p'.task t.id) (recordOf t.id p.log)) :
    Manned s p' where
  tasks t ht := by
    rw [hlog, houtcomes]
    rcases htasks t ht with ⟨ht, htask⟩ | hnew
    · rw [htask]
      exact hm.tasks t ht
    · exact hnew
  fills := by
    rw [hlog, hfill, hfills]
    exact hm.fills

/-- After a step of a thread the records fit together again, and all threads keep to the rules. -/
theorem Linked.onward (hl : Linked s p) {me : Nat} {first newer : List Event}
    (h : Onward s p p' me first newer) (hm : Manned s p')
    (hagrees : ∃ es, Guard.Agrees p'.world es fun _ ↦ True) : Linked s p' := by
  obtain ⟨es, hes⟩ := hl.agrees
  exact ⟨hl.toRecorded.onward h fun key i hi ↦ (hes.inFlight_iff s.guard key i).mp hi, hm, hagrees⟩

/-- So they do after what is no step of a task or a fill. -/
theorem Linked.frame (hl : Linked s p) (hagrees : ∃ es, Guard.Agrees p'.world es fun _ ↦ True)
    (hlog : p'.log = p.log) (hfill : p'.fill = p.fill) (hfills : p'.world.fills = p.world.fills)
    (houtcomes : p'.world.outcomes = p.world.outcomes)
    (htasks : ∀ t ∈ p'.world.tasks, (t ∈ p.world.tasks ∧ p'.task t.id = p.task t.id) ∨
      p.world.outcomes[t.id]? = none ∧ Placed s anyEnd (p'.task t.id) (recordOf t.id p.log)) :
    Linked s p' :=
  ⟨hl.toRecorded.frame hlog hfills houtcomes,
    hl.toManned.frame hlog hfill hfills houtcomes htasks, hagrees⟩

/-- Every move keeps the records together. -/
theorem Linked.apply (hl : Linked s p) (hs : Play.Sound (Tally s hits misses) [] p)
    {m : Play.Move Event ρ} (hm : p.Allowed (usage s) m) : Linked s (p.apply m) ∧
      ((p.apply m).log = p.log ∨ ∃ me first newer, Onward s p (p.apply m) me first newer) := by
  obtain ⟨es, hagrees⟩ := hl.agrees
  have hfresh : Guard.Move.Fresh m.plain := by
    cases m with
    | spawn held code => exact hm.unbegun
    | _ => trivial
  have hagrees' : ∃ es, Guard.Agrees (p.apply m).world es fun _ ↦ True := by
    rw [Play.world_apply]
    exact ⟨_, hagrees.apply hs.numbered m.plain hfresh⟩
  cases m with
  | run th =>
    cases th with
    | task i =>
      cases ht : p.world.tasks.find? fun t ↦ t.id = i with
      | some t =>
        obtain rfl := (World.mem_of_find? ht).2
        obtain ⟨⟨first, newer, honward⟩, hmanned⟩ := hl.runTask hs ht
        exact ⟨hl.onward honward hmanned hagrees', Or.inr ⟨_, first, newer, honward⟩⟩
      | none =>
        have happly : p.apply (.run (.task i)) = p := by simp only [Play.apply, ht]
        rw [happly]
        exact ⟨hl, Or.inl rfl⟩
    | fill i =>
      cases hf : p.world.fills.find? fun f ↦ f.id = i with
      | some f =>
        obtain rfl := (World.mem_fills_of_find? hf).2
        obtain ⟨⟨first, newer, honward⟩, hmanned⟩ := hl.runFill hs hf
        exact ⟨hl.onward honward hmanned hagrees', Or.inr ⟨_, first, newer, honward⟩⟩
      | none =>
        have happly : p.apply (.run (.fill i)) = p := by simp only [Play.apply, hf]
        rw [happly]
        exact ⟨hl, Or.inl rfl⟩
    | loop r => exact ⟨hl.frame hagrees' rfl rfl rfl rfl fun t ht ↦ Or.inl ⟨ht, rfl⟩, Or.inl rfl⟩
  | spawn held code =>
    refine ⟨hl.frame hagrees' rfl rfl rfl rfl fun t ht ↦ ?_, Or.inl rfl⟩
    rcases List.mem_append.mp ht with ht | ht
    · have hne : t.id ≠ p.world.heap.nextThread := Nat.ne_of_lt (hs.numbered.task_lt t ht)
      exact Or.inl ⟨ht, if_neg hne⟩
    · rw [List.mem_singleton.mp ht]
      refine Or.inr ⟨hagrees.outcome_eq_none_of_le (Nat.le_refl _), ?_⟩
      rw [recordOf_eq_nil hs.marks]
      simp only [Play.apply, if_true]
      exact .goes hm.conducts_task
  | abort i =>
    exact ⟨hl.frame hagrees' rfl rfl rfl rfl fun t ht ↦ Or.inl ⟨(List.mem_filter.mp ht).1, rfl⟩,
      Or.inl rfl⟩
  | advance t => exact ⟨hl.frame hagrees' rfl rfl rfl rfl fun t ht ↦ Or.inl ⟨ht, rfl⟩, Or.inl rfl⟩
  | hold named guarded =>
    exact ⟨hl.frame hagrees' rfl rfl rfl rfl fun t ht ↦ Or.inl ⟨ht, rfl⟩, Or.inl rfl⟩

/-- Nothing is on record at first. -/
theorem linked_opening (s : ServerHandle) (now : Nat) (tiers : Tiers) :
    Linked s (Play.opening now tiers [] : Play Event ρ) where
  lawful _ := trivial
  still _ := trivial
  turned _ _ _ _ h := absurd h List.not_mem_nil
  began _ _ h := absurd h List.not_mem_nil
  filled _ _ _ _ _ _ h := absurd (List.suffix_nil.mp h) (List.cons_ne_nil _ _)
  tasks _ h := absurd h List.not_mem_nil
  fills _ h := absurd h List.not_mem_nil
  agrees := ⟨[], Guard.kept_nil, fun _ h ↦ absurd h List.not_mem_nil,
    fun _ h ↦ absurd h List.not_mem_nil⟩

/-- The accesses counted for a store are those on record, and the records fit together, in every
play that is reached. -/
theorem sound_linked {now : Nat} {tiers : Tiers}
    (h : Play.Reachable (usage s) (Play.opening now tiers []) p) :
    Play.Sound (Tally s (tiers.server s.server).counters.hits
      (tiers.server s.server).counters.misses) [] p ∧ Linked s p := by
  have hopening : Tally s (tiers.server s.server).counters.hits
      (tiers.server s.server).counters.misses
      { Heap.initial with now := now, tiers := tiers } [] := ⟨rfl, rfl⟩
  induction h with
  | start => exact ⟨@Play.sound_opening _ _ _ (usage s) _ _ hopening, linked_opening s now tiers⟩
  | move m hm _ ih => exact ⟨ih.1.apply keep_tally hm, (ih.2.apply ih.1 hm).1⟩

end Remote

end TwoTier
