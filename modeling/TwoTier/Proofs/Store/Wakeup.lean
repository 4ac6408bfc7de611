import TwoTier.Proofs.Store.Queue

/-!
# Whoever waits for an element finds none

A call that waits for an element of a list has taken notice of a number of pushes, and has tried
since: when it began to wait all its lists were empty (`Call.Asleep`). In terms of the marks, there
was a moment with as many pushes at which all that was pushed to its keys had been popped
(`Queue.Wakeful`). Marks are only added, so that this stays true while others take their steps
(`Queue.Attentive.apply`).

So a call that waits while nothing new was pushed waits for lists that are empty: no wake-up is
lost. This and the balance of what is pushed and popped is the main result, `Queue.nothing_lost`.
-/

set_option autoImplicit false
set_option relaxedAutoImplicit false

namespace TwoTier

namespace Call

variable {α β : Type} {s : Nat}

/-- A call has not waited yet for an element of the store `s`. -/
def Unseen (s : Nat) {α : Type} : Call α → Prop
  | done _ => True
  | crash => True
  | read k => ∀ h, (k h).Unseen s
  | write _ k => k.Unseen s
  | pause k => k.Unseen s
  | sleep _ k => k.Unseen s
  | pop s' _ _ seen k => (s' = s → seen = none) ∧ ∀ a, (k a).Unseen s
  | join _ _ _ k => ∀ a, (k a).Unseen s
  | await _ k => ∀ a, (k a).Unseen s
  | acquire _ k => k.Unseen s
  | release _ k => k.Unseen s
  | loopEnd _ _ k => ∀ b, (k b).Unseen s

theorem Unseen.bind {c : Call α} {f : α → Call β} (hc : c.Unseen s) (hf : ∀ a, (f a).Unseen s) :
    (c.bind f).Unseen s := by
  induction c with
  | done a => exact hf a
  | crash => trivial
  | read k ih => exact fun h ↦ ih h (hc h) hf
  | write t k ih => exact ih hc hf
  | pause k ih => exact ih hc hf
  | sleep wake k ih => exact ih hc hf
  | pop s keys deadline seen k ih => exact ⟨hc.1, fun a ↦ ih a (hc.2 a) hf⟩
  | join g key fill k _ ih => exact fun a ↦ ih a (hc a) hf
  | await i k ih => exact fun a ↦ ih a (hc a) hf
  | acquire m k ih => exact ih hc hf
  | release m k ih => exact ih hc hf
  | loopEnd r deadline k ih => exact fun b ↦ ih b (hc b) hf

/-- A call that waits for an element of the store `s` knows of all pushes, and its lists are
empty. -/
def Asleep (s : Nat) (h : Heap) : Call α → Prop
  | pop s' keys _ seen k =>
    (s' = s → seen = some (h.tiers.store s).pushes ∧
      ∀ key ∈ keys, (h.tiers.store s).items h.now key = []) ∧ ∀ a, (k a).Unseen s
  | c => c.Unseen s

/-- A wait for an element goes on as it is where nothing was pushed since it began; else it is over,
or the call waits for lists that are empty. -/
theorem halt_pop (me : Nat) {s' : Nat} {keys : List String} {deadline seen : Option Nat}
    {k : Answer (Option (String × String)) → Call α} (hk : ∀ a, (k a).Unseen s)
    (hhalt : ∀ a h, ((k a).halt me h).2.Asleep s ((k a).halt me h).1) (h : Heap) :
    let c := pop s' keys deadline seen k
    (seen ≠ none ∧ c.halt me h = (h, c)) ∨ (c.halt me h).2.Asleep s (c.halt me h).1 := by
  intro c
  simp only [c, halt]
  split_ifs with hseen hdue hdue
  · exact Or.inr (hhalt _ h)
  · exact Or.inl ⟨by rw [hseen]; exact Option.some_ne_none _, rfl⟩
  · cases (Store.tryPop h.now keys (h.tiers.store s')).1 with
    | ok x => cases x <;> exact Or.inr (hhalt _ _)
    | fault f => exact Or.inr (hhalt _ _)
    | overflow => exact Or.inr (hhalt _ _)
  · have htried := Store.tryPop_tried h.now keys (h.tiers.store s')
    cases houtcome : (Store.tryPop h.now keys (h.tiers.store s')).1 with
    | ok x =>
      cases x with
      | some x => exact Or.inr (hhalt _ _)
      | none =>
        refine Or.inr ⟨?_, hk⟩
        rintro rfl
        rw [houtcome] at htried
        cases htried with
        | none hempty hafter =>
          simp only [Tiers.store_setStore, if_true]
          refine ⟨by rw [(Store.kept_tryPop ..).1], fun key hkey ↦ ?_⟩
          rw [hafter]
          exact hempty key hkey
    | fault f => exact Or.inr (hhalt _ _)
    | overflow =>
      rw [houtcome] at htried
      cases htried

/-- Where the step of a call that has not waited for an element ends with such a wait, the lists are
empty. -/
theorem Unseen.halt {c : Call α} (hc : c.Unseen s) (me : Nat) (h : Heap) :
    (c.halt me h).2.Asleep s (c.halt me h).1 := by
  induction c generalizing h with
  | done a => trivial
  | crash => trivial
  | read k ih => exact ih h (hc h) h
  | write t k ih => exact ih hc _
  | pause k => exact hc
  | sleep wake k ih =>
    simp only [Call.halt]
    split_ifs
    · exact ih hc h
    · exact hc
  | pop s' keys deadline seen k ih =>
    rcases halt_pop me hc.2 (fun a ↦ ih a (hc.2 a)) h with ⟨hseen, hhalt⟩ | hasleep
    · rw [hhalt]
      exact ⟨fun hs ↦ absurd (hc.1 hs) hseen, hc.2⟩
    · exact hasleep
  | join g key fill k => exact hc
  | await i k => exact hc
  | acquire m k ih =>
    simp only [Call.halt]
    split_ifs
    · exact ih hc _
    · exact hc
  | release m k ih => exact ih hc _
  | loopEnd r deadline k ih =>
    simp only [Call.halt]
    split_ifs
    · exact ih _ (hc _) h
    · exact ih _ (hc _) h
    · exact hc

end Call

namespace Queue

variable {s : Nat} {α ρ : Type}

/-- A call that waits for an element of the store `s` has seen, at a moment with the number of
pushes that it has taken notice of, that everything pushed to its keys had been popped. -/
def Wakeful (s : Nat) (l : Log Mark) : Call α → Prop
  | .pop s' keys _ seen k =>
    (s' = s → ∀ n, seen = some n → ∃ older, older <:+ l ∧ pushCount older = n ∧
      ∀ key ∈ keys, pushedTo key older = poppedFrom key older) ∧ ∀ a, (k a).Unseen s
  | c => c.Unseen s

theorem Wakeful.of_unseen {l : Log Mark} {c : Call α} (hc : c.Unseen s) : Wakeful s l c := by
  cases c with
  | pop s' keys deadline seen k =>
    refine ⟨fun hs n hn ↦ ?_, hc.2⟩
    rw [hc.1 hs] at hn
    cases hn
  | _ => exact hc

theorem Wakeful.mono {l l' : Log Mark} {c : Call α} (hc : Wakeful s l c) (hl : l <:+ l') :
    Wakeful s l' c := by
  cases c with
  | pop s' keys deadline seen k =>
    refine ⟨fun hs n hn ↦ ?_, hc.2⟩
    obtain ⟨older, hsuffix, hcount, hempty⟩ := hc.1 hs n hn
    exact ⟨older, hsuffix.trans hl, hcount, hempty⟩
  | _ => exact hc

/-- Where the store is in balance with the marks, empty lists are lists from which all was
popped. -/
theorem Wakeful.of_asleep {h : Heap} {l : Log Mark} {c : Call α} (hc : c.Asleep s h)
    (hbalanced : ¬ c.conclusion?.isSome → Balanced s h l) : Wakeful s l c := by
  cases c with
  | pop s' keys deadline seen k =>
    have hb := hbalanced Bool.false_ne_true
    refine ⟨fun hs n hn ↦ ⟨l, List.suffix_refl l, ?_, fun key hkey ↦ ?_⟩, hc.2⟩
    · rw [(hc.1 hs).1] at hn
      rw [← hb.count]
      exact Option.some.inj hn
    · rw [hb.balance, (hc.1 hs).2 key hkey, List.append_nil]
  | _ => exact hc

/-- What a call whose wait is over goes on with. -/
theorem Wakeful.resume {w : World ρ} {l : Log Mark} {c : Call α} (hc : Wakeful s l c) :
    Wakeful s l (w.resume c) := by
  cases c with
  | pause k => exact .of_unseen hc
  | await i k =>
    unfold World.resume
    dsimp only
    split
    · exact .of_unseen (hc _)
    · exact hc
  | _ => exact hc

/-- The step of a call: it goes on waiting, or it ends asleep. -/
theorem Wakeful.halt {l : Log Mark} {c : Call α} (hc : Wakeful s l c) (me : Nat) (h : Heap) :
    c.halt me h = (h, c) ∨ (c.halt me h).2.Asleep s (c.halt me h).1 := by
  cases c with
  | pop s' keys deadline seen k =>
    exact (Call.halt_pop me hc.2 (fun a ↦ (hc.2 a).halt me) h).imp And.right id
  | _ => exact Or.inr (Call.Unseen.halt hc me h)

/-- The beginning of a wait for a fill. -/
theorem Wakeful.enter {l : Log Mark} {halted : Heap × Call α} (hc : Wakeful s l halted.2) :
    Wakeful s l (Call.enter [] halted).rest := by
  obtain ⟨h, c⟩ := halted
  cases c with
  | join g key fill k =>
    unfold Call.enter
    dsimp only
    split <;> exact hc
  | _ => exact hc

/-- All tasks that wait for elements of the store have seen their lists empty. -/
def Attentive (s : Nat) (p : Play Mark ρ) : Prop :=
  ∀ t ∈ p.world.tasks, Wakeful s p.log t.code

/-- A step of a thread that keeps the balance leaves its own call wakeful, and adds marks only. -/
theorem wakeful_of_step {p : Play Mark ρ} {me : Nat} {code : Call α} {m : Marked Mark α}
    (hs : p.Sound (Balanced s) []) (hready : Play.Ready (Balanced s) p.log me code m)
    (hc : Wakeful s p.log code) :
    let l := ((p.resume m).halt me p.world.heap p.log).log
    p.log <:+ l ∧ Wakeful s l ((p.world.resume code).exec me p.world.heap []).rest := by
  intro l
  obtain ⟨hcode, hsafe⟩ := hready.resume hs.inv
  obtain ⟨hhalt, hwaits, hsafe', new, hnew, -⟩ := hsafe.halt
  have hsuffix : p.log <:+ l := ⟨new, hnew.symm⟩
  refine ⟨hsuffix, ?_⟩
  rw [Call.exec_eq_enter]
  refine Wakeful.enter ?_
  have hresumed : Wakeful s p.log (p.world.resume code) := hc.resume
  rcases hresumed.halt me p.world.heap with hstay | hasleep
  · rw [hstay]
    exact hresumed.mono hsuffix
  · rw [hcode] at hasleep ⊢
    rw [hhalt] at hasleep ⊢
    refine .of_asleep hasleep fun hover ↦ (hsafe'.later hwaits fun hover' ↦ hover ?_).1
    generalize ((p.resume m).halt me p.world.heap p.log).rest = rest at hover'
    cases rest with
    | done a => rfl
    | crash => rfl
    | _ => exact hover'.elim

/-- No call of the tasks has waited for an element before it begins. -/
theorem Queues.unseen {m : Marked Mark α} (hm : Queues s m) : m.call.Unseen s := by
  induction hm with
  | done a => trivial
  | crash => trivial
  | push _ _ ih =>
    refine Call.Unseen.bind ?_ fun a ↦ ?_
    · refine fun h ↦ ?_
      dsimp only [Call.Unseen]
      split <;> trivial
    · cases a with
      | ok _ => exact ih _
      | error f => exact ih _
  | pop _ _ ih =>
    refine fun h ↦ ?_
    simp only [Call.done_bind]
    split
    · exact ih _
    · refine ⟨fun _ ↦ rfl, fun a ↦ ?_⟩
      dsimp only [taken]
      split <;> exact ih _
  | look _ ih => exact fun h ↦ ih _
  | elsewhere _ _ ih => exact fun h ↦ ih _
  | pause _ ih => exact ih
  | sleep _ ih => exact ih

/-- Whatever happens next, all tasks that wait have seen their lists empty. -/
theorem Attentive.apply {p : Play Mark ρ} (ha : Attentive s p) (hs : p.Sound (Balanced s) [])
    {m : Play.Move Mark ρ} (hm : p.Allowed (queueing s ρ) m) : Attentive s (p.apply m) := by
  cases m with
  | run th =>
    cases th with
    | task i =>
      cases ht : p.world.tasks.find? fun t ↦ t.id = i with
      | none =>
        simp only [Play.apply, ht]
        exact ha
      | some t =>
        obtain ⟨hmem, rfl⟩ := World.mem_of_find? ht
        obtain ⟨hsuffix, hwakeful⟩ := wakeful_of_step hs (hs.tasks t hmem) (ha t hmem)
        intro u hu
        simp only [Play.apply, World.run, ht, World.runTask_eq] at hu ⊢
        rcases World.mem_or_code_of_mem_afterTask hu with hu | hcode
        · exact (ha u hu).mono hsuffix
        · rw [hcode]
          exact hwakeful
    | fill i =>
      cases hf : p.world.fills.find? fun f ↦ f.id = i with
      | none =>
        simp only [Play.apply, hf]
        exact ha
      | some f =>
        obtain ⟨hmem, rfl⟩ := World.mem_fills_of_find? hf
        obtain ⟨-, hsafe⟩ := (hs.fills f hmem).resume hs.inv
        obtain ⟨-, -, -, new, hnew, -⟩ := hsafe.halt
        intro u hu
        simp only [Play.apply, World.run, hf, World.runFill_eq, World.tasks_afterFill] at hu ⊢
        exact (ha u hu).mono ⟨new, hnew.symm⟩
    | loop r => exact ha
  | spawn held code =>
    intro u hu
    rcases List.mem_append.mp hu with hu | hu
    · exact ha u hu
    · rw [List.mem_singleton.mp hu]
      exact .of_unseen (Queues.unseen hm)
  | abort i => exact fun u hu ↦ ha u (List.mem_filter.mp hu).1
  | advance t => exact ha
  | hold named guarded => exact ha

theorem attentive_of_reachable {now : Nat} {tiers : Tiers} {p : Play Mark ρ}
    (hempty : tiers.store s = .empty)
    (hp : Play.Reachable (queueing s ρ) (Play.opening now tiers []) p) : Attentive s p := by
  induction hp with
  | start => exact fun t ht ↦ absurd ht List.not_mem_nil
  | move m hm hp ih => exact ih.apply (sound_of_reachable hempty hp) hm

/-! ### What was pushed since -/

theorem pushCount_append (newer older : Log Mark) :
    pushCount (newer ++ older) = pushCount newer + pushCount older := by
  induction newer with
  | nil => exact (Nat.zero_add _).symm
  | cons y newer ih =>
    obtain ⟨th, e⟩ := y
    cases e with
    | pushed key values =>
      change pushCount (newer ++ older) + 1 = pushCount newer + 1 + pushCount older
      omega
    | popped keys key value => exact ih

/-- While nothing is pushed, what was pushed stays the same. -/
theorem pushedTo_append {newer older : Log Mark} (h : pushCount newer = 0) (key : String) :
    pushedTo key (newer ++ older) = pushedTo key older := by
  induction newer with
  | nil => rfl
  | cons y newer ih =>
    obtain ⟨th, e⟩ := y
    cases e with
    | pushed k values => exact absurd h (Nat.succ_ne_zero _)
    | popped keys k value => exact ih h

/-- What was popped stays popped. -/
theorem poppedFrom_append (newer older : Log Mark) (key : String) :
    ∃ more, poppedFrom key (newer ++ older) = poppedFrom key older ++ more := by
  induction newer with
  | nil => exact ⟨[], (List.append_nil _).symm⟩
  | cons y newer ih =>
    obtain ⟨th, e⟩ := y
    obtain ⟨more, hmore⟩ := ih
    cases e with
    | pushed k values => exact ⟨more, hmore⟩
    | popped keys k value =>
      rw [List.cons_append, poppedFrom, hmore]
      split_ifs
      · exact ⟨more ++ [value], List.append_assoc ..⟩
      · exact ⟨more, rfl⟩

/-- Lists from which everything had been popped are empty while nothing is pushed. -/
theorem Balanced.items_eq_nil {h : Heap} {log older : Log Mark} (hc : Balanced s h log)
    (holder : older <:+ log) (hcount : pushCount older = pushCount log) {key : String}
    (hpopped : pushedTo key older = poppedFrom key older) :
    (h.tiers.store s).items h.now key = [] := by
  obtain ⟨newer, rfl⟩ := holder
  have hnone : pushCount newer = 0 := by
    rw [pushCount_append] at hcount
    omega
  obtain ⟨more, hmore⟩ := poppedFrom_append newer older key
  have hbalance := hc.balance key
  rw [pushedTo_append hnone, hpopped, hmore, List.append_assoc, List.self_eq_append_right]
    at hbalance
  exact (List.append_eq_nil_iff.mp hbalance).2

/-- The calls that push to the lists of a store and pop from them, and leave marks of it, are the
operations of the store. Through any steps of any tasks that make them, from an empty store on,
where calls may wait, give up or be cancelled: what was pushed to a key is what was popped from it,
in this order, followed by the list that the key shows. Each pop took the head of the first list
among its keys that was not empty then. And a task that cannot go on because it waits for an element
waits for lists that are empty. -/
theorem nothing_lost {now : Nat} {tiers : Tiers} {p : Play Mark ρ}
    (hempty : tiers.store s = .empty)
    (hp : Play.Reachable (queueing s ρ) (Play.opening now tiers []) p) :
    (∀ x : StoreHandle,
      (∀ key values, (x.tier.rpush key values).Underlies (markedPush x key values)) ∧
      ∀ timeout keys, (x.blpop timeout keys).Underlies (markedPop x timeout keys)) ∧
    (∀ key, pushedTo key p.log =
      poppedFrom key p.log ++ (p.world.heap.tiers.store s).items p.world.heap.now key) ∧
    (∀ newer th keys key value older, p.log = newer ++ (th, .popped keys key value) :: older →
      TookHead older keys key value) ∧
    ∀ t ∈ p.world.tasks, p.world.ready t.id t.code = false →
      ∀ keys deadline seen k, t.code = .pop s keys deadline seen k →
        ∀ key ∈ keys, (p.world.heap.tiers.store s).items p.world.heap.now key = [] := by
  have hbalanced := (sound_of_reachable hempty hp).inv
  refine ⟨fun x ↦ ⟨underlies_markedPush x, underlies_markedPop x⟩, hbalanced.balance,
    hbalanced.heads, fun t ht hwaits keys deadline seen k hcode key hkey ↦ ?_⟩
  have hwakeful := attentive_of_reachable hempty hp t ht
  rw [hcode] at hwakeful hwaits
  have hseen : seen = some (p.world.heap.tiers.store s).pushes := by
    simpa [World.ready] using (Bool.or_eq_false_iff.mp hwaits).1
  obtain ⟨older, hsuffix, hcount, hpopped⟩ := hwakeful.1 rfl _ hseen
  exact hbalanced.items_eq_nil hsuffix (hcount.trans hbalanced.count) (hpopped key hkey)

/-- Two tasks wait, and one of them is cancelled. A push wakes the other, which takes the first
value of the second of its keys; a third task comes to wait for the first key. -/
theorem nothing_lost_of_woken_pop :
    let x : StoreHandle := ⟨0, 1⟩
    let opening : Play Mark Unit := .opening 0 (Tiers.empty.setStore 0 .empty) []
    let pop (keys : List String) : Marked Mark Unit := markedPop x 0 keys fun _ ↦ .done ()
    let waiting := (opening.apply (.spawn [] (pop ["a", "b"]))).apply (.run (.task 0))
    let cancelled :=
      ((waiting.apply (.spawn [] (pop ["b"]))).apply (.run (.task 1))).apply (.abort 1)
    let pushed := (cancelled.apply (.spawn [] (markedPush x "b" ["1", "2"] fun _ ↦ .done ()))).apply
      (.run (.task 2))
    let woken := pushed.apply (.run (.task 0))
    let last := (woken.apply (.spawn [] (pop ["a"]))).apply (.run (.task 3))
    Play.Reachable (queueing 0 Unit) opening last ∧
      last.log = [(0, .popped ["a", "b"] "b" "1"), (2, .pushed "b" ["1", "2"])] ∧
      (last.world.heap.tiers.store 0).items last.world.heap.now "b" = ["2"] ∧
      TookHead [(2, .pushed "b" ["1", "2"])] ["a", "b"] "b" "1" ∧
      last.world.candidates = [] := by
  intro x opening pop waiting cancelled pushed woken last
  have hpop : ∀ keys, Queues 0 (pop keys) := fun _ ↦ .pop rfl fun _ ↦ .done ()
  have hwaiting : Play.Reachable (queueing 0 Unit) opening waiting :=
    .move _ ⟨0, by decide +kernel⟩ (.move _ (hpop _) .start)
  have hcancelled : Play.Reachable (queueing 0 Unit) opening cancelled :=
    .move _ trivial (.move _ ⟨2, by decide +kernel⟩ (.move _ (hpop _) hwaiting))
  have hpushed : Play.Reachable (queueing 0 Unit) opening pushed :=
    .move _ ⟨4, by decide +kernel⟩ (.move _ (.push rfl fun _ ↦ .done ()) hcancelled)
  have hwoken : Play.Reachable (queueing 0 Unit) opening woken :=
    .move _ ⟨1, by decide +kernel⟩ hpushed
  have hlast : Play.Reachable (queueing 0 Unit) opening last :=
    .move _ ⟨7, by decide +kernel⟩ (.move _ (hpop _) hwoken)
  have hlog : last.log = [(0, .popped ["a", "b"] "b" "1"), (2, .pushed "b" ["1", "2"])] := by
    decide +kernel
  obtain ⟨-, hbalance, hheads, -⟩ := nothing_lost rfl hlast
  have hb := hbalance "b"
  rw [hlog] at hb
  have hitems : ["1", "2"] =
      ["1"] ++ (last.world.heap.tiers.store 0).items last.world.heap.now "b" := hb
  exact ⟨hlast, hlog, ((List.append_right_inj ["1"]).mp hitems).symm,
    hheads [] 0 _ _ _ _ hlog, by decide +kernel⟩

end Queue

end TwoTier
