import TwoTier.Proofs.Server.Serving

/-!
# Where a thread stands with its record

A thread that has turned to the fills of a store waits for one fill, and goes on as answered by it;
elsewhere it keeps to the rules by itself (`Remote.Placed`). A fill of the store begins its fetch
with its first step (`Remote.Tended`). `Remote.Leads` is what one step of such a thread comes to:
what it leaves on record, which fill it turns to, and where the thread stands afterwards
(`Remote.Placed.leads`, `Remote.Tended.leads`).
-/

set_option autoImplicit false
set_option relaxedAutoImplicit false

namespace TwoTier

namespace Remote

/-! ### Records of single threads -/

/-- What a thread has left on record, the latest event first. -/
def recordOf (th : Nat) (l : Log Event) : List Event := (Marked.marksOf th l).map Prod.snd

theorem recordOf_new (me : Nat) (new : List Event) (l : Log Event) :
    recordOf me (new.map (Prod.mk me) ++ l) = new ++ recordOf me l := by
  induction new with
  | nil => rfl
  | cons e new ih =>
    unfold recordOf Marked.marksOf at ih ⊢
    rw [List.map_cons, List.cons_append, List.filter_cons_of_pos (by simp), List.map_cons, ih]
    rfl

theorem recordOf_of_ne {th me : Nat} (hth : th ≠ me) (new : List Event) (l : Log Event) :
    recordOf th (new.map (Prod.mk me) ++ l) = recordOf th l := by
  unfold recordOf
  rw [Marked.marksOf_append fun x hx ↦ ?_]
  obtain ⟨e, -, rfl⟩ := List.mem_map.mp hx
  exact hth.symm

theorem recordOf_eq_nil {l : Log Event} {n : Nat} (h : ∀ x ∈ l, x.1 < n) : recordOf n l = [] := by
  unfold recordOf
  rw [Play.marksOf_eq_nil h]
  rfl

/-- Records only grow. -/
theorem mem_recordOf_append {th : Nat} {e : Event} {l : Log Event} (he : e ∈ recordOf th l)
    (new : Log Event) : e ∈ recordOf th (new ++ l) := by
  unfold recordOf Marked.marksOf at he ⊢
  rw [List.filter_append, List.map_append]
  exact List.mem_append_right _ he

variable {s : ServerHandle} {ρ α : Type} {fin : List Event → Conclusion α → Prop}

/-- A thread keeps to the rules by itself, or it waits for the fill to which it has turned. -/
inductive Placed (s : ServerHandle) {α : Type} (fin : List Event → Conclusion α → Prop) :
    Marked Event α → List Event → Prop
  | goes {m : Marked Event α} {own : List Event} (h : Conducts s fin m own) : Placed s fin m own
  | waits {key : String} {flight : Option Nat} {next : Nat} {before : List Event}
      {k : Answer String → Marked Event α}
      (hk : ∀ o, Conducts s fin (k o) (.filled key o :: .turned key flight next :: before)) :
      Placed s fin (.await (flight.getD next) fun o ↦ .mark (fun _ ↦ .filled key o) (k o))
        (.turned key flight next :: before)

/-- Where a thread waits, all that has come is dealt with. -/
theorem Placed.still {m : Marked Event α} {own : List Event} (hm : Placed s fin m own)
    (hwaits : m.Waits) : Still own := by
  cases hm with
  | goes h => exact h.still hwaits
  | waits hk => trivial

/-- A thread that has ended has ended as it may. -/
theorem Placed.fin_done {own : List Event} {a : α} (hm : Placed s fin (.done a) own) :
    fin own (.answer a) := by
  cases hm with
  | goes h => cases h with | done _ hfin => exact hfin

theorem Placed.fin_crash {own : List Event} (hm : Placed s fin (.crash : Marked Event α) own) :
    fin own .crash := by
  cases hm with
  | goes h => cases h with | crash _ hfin => exact hfin

/-- A fill of the store for a key: it has yet to begin its fetch, or it has begun it. -/
inductive Tended (s : ServerHandle) (key : String) :
    Marked Event (Answer String) → List Event → Prop
  | fresh {m : Marked Event (Answer String)} (hm : Conducts s fillEnd m [.began key]) :
      Tended s key (.pause (.mark (fun _ ↦ .began key) m)) []
  | begun {m : Marked Event (Answer String)} {own : List Event} (hbegan : .began key ∈ own)
      (hm : Placed s fillEnd m own) : Tended s key m own

/-! ### A step -/

/-- With what a step of a thread begins: nothing, the outcome of the fill for which it has waited,
or the fetch of a key. -/
inductive Prelude (p : Play Event ρ) (key? : Option String) (own : List Event) :
    List Event → Prop
  | nothing : Prelude p key? own []
  | filled {key : String} {o : Answer String} {flight : Option Nat} {next : Nat}
      {before : List Event} (hown : own = .turned key flight next :: before)
      (ho : p.world.outcomes[flight.getD next]? = some o) : Prelude p key? own [.filled key o]
  | began {key : String} (hkey : key? = some key) (hown : own = []) :
      Prelude p key? own [.began key]

theorem Prelude.lawful {p : Play Event ρ} {key? : Option String} {own first : List Event}
    (hfirst : Prelude p key? own first) (hown : Lawful own) : Lawful (first ++ own) := by
  cases hfirst with
  | nothing => exact hown
  | filled heq _ => exact ⟨⟨_, _, _, heq⟩, hown⟩
  | began _ heq => exact ⟨heq, hown⟩

/-- An answer by a fill that ends with what a step begins with is the outcome of that fill, or was
there before. -/
theorem Prelude.filled_suffix {p : Play Event ρ} {key? : Option String}
    {own first before : List Event} (hfirst : Prelude p key? own first) {key : String}
    {o : Answer String} {flight : Option Nat} {next : Nat}
    (hsuffix : .filled key o :: .turned key flight next :: before <:+ first ++ own) :
    p.world.outcomes[flight.getD next]? = some o ∨
      .filled key o :: .turned key flight next :: before <:+ own := by
  cases hfirst with
  | nothing => exact Or.inr hsuffix
  | filled hown ho =>
    rcases List.suffix_cons_iff.mp hsuffix with heq | hsuffix
    · obtain ⟨hfilled, hrest⟩ := List.cons.inj heq
      obtain ⟨hturned, -⟩ := List.cons.inj (hrest.trans hown)
      obtain ⟨-, rfl⟩ := Event.filled.inj hfilled
      obtain ⟨-, rfl, rfl⟩ := Event.turned.inj hturned
      exact Or.inl ho
    · exact Or.inr hsuffix
  | began =>
    rcases List.suffix_cons_iff.mp hsuffix with heq | hsuffix
    · cases (List.cons.inj heq).1
    · exact Or.inr hsuffix

/-- What a step of a thread comes to, after its first events. -/
structure Leads (s : ServerHandle) (fin : List Event → Conclusion α → Prop) (h : Heap) (me : Nat)
    (l : Log Event) (own newer : List Event) (r : Halted Event α) : Prop where
  log_eq : r.log = newer.map (Prod.mk me) ++ l
  lawful : Lawful own → Lawful (newer ++ own)
  placed : Placed s fin (Play.entered r) (newer ++ own)
  unfilled : ∀ key o, .filled key o ∉ newer
  unbegun : ∀ key, .began key ∉ newer
  turned : ∀ {key flight next}, .turned key flight next ∈ newer →
    flight = (h.guard s.guard).inFlight[key]? ∧ next = h.nextThread ∧
      ∃ m k, r.rest = .join s.guard key m k
  joins : ∀ {g key m k}, r.rest = .join g key m k →
    (g ≠ s.guard ∧ Conducts s anyEnd m []) ∨
      (g = s.guard ∧ turnedAt s key h ∈ newer ∧ ∃ m', m = .mark (fun _ ↦ .began key) m' ∧
        Conducts s fillEnd m' [.began key])

/-- A call that waits for a fill of another guard keeps to the rules as it begins to wait. -/
theorem Conducts.entered {r : Halted Event α} {own : List Event} (h : Conducts s fin r.rest own) :
    Conducts s fin (Play.entered r) own ∧ ∀ {g key m k}, r.rest = .join g key m k →
      g ≠ s.guard ∧ Conducts s anyEnd m [] := by
  obtain ⟨heap, l, rest⟩ := r
  unfold Play.entered
  dsimp only at h ⊢
  split
  · cases h with
    | join hstill hg key hfill hk =>
      refine ⟨.await hstill _ hk, fun heq ↦ ?_⟩
      cases heq
      exact ⟨hg, hfill⟩
  · rename_i hnot
    exact ⟨h, fun heq ↦ absurd heq (hnot _ _ _ _)⟩

/-- A step of a call that keeps to the rules, with the guards as the step has found them. -/
theorem Stepped.leads {me : Nat} {l : Log Event} {own : List Event} {r : Halted Event α}
    (hr : Stepped s fin me l own r) {h : Heap} (hguards : r.heap.guards = h.guards)
    (hnext : r.heap.nextThread = h.nextThread) : ∃ newer, Leads s fin h me l own newer r := by
  have hturned : ∀ key, turnedAt s key r.heap = turnedAt s key h := by
    intro key
    unfold turnedAt Heap.guard
    rw [hguards, hnext]
  cases hr with
  | goes new hlog hlawful hplain hrest =>
    obtain ⟨hentered, hjoin⟩ := hrest.entered
    exact ⟨new, hlog, hlawful, .goes hentered, fun _ _ hmem ↦ hplain _ hmem,
      fun _ hmem ↦ hplain _ hmem,
      fun hmem ↦ (hplain _ hmem).elim, fun heq ↦ Or.inl (hjoin heq)⟩
  | turns new key m k hlog hlawful hplain hrest hfill hk =>
    rw [hturned] at hlog hlawful
    have hold : ∀ {e}, e ∈ turnedAt s key h :: new → ¬ e.Plain → e = turnedAt s key h := by
      intro e he hnot
      rcases List.mem_cons.mp he with rfl | he
      · rfl
      · exact absurd (hplain e he) hnot
    refine ⟨turnedAt s key h :: new, hlog, hlawful, ?_, fun key' o hmem ↦ ?_, fun key' hmem ↦ ?_,
      fun hmem ↦ ?_, fun heq ↦ ?_⟩
    · have hentered : Play.entered r = .await (((h.guard s.guard).inFlight[key]?).getD h.nextThread)
          fun o ↦ .mark (fun _ ↦ .filled key o) (k o) := by
        unfold Play.entered
        rw [hrest]
        unfold Call.fillOf Heap.guard
        rw [hguards, hnext]
      rw [hentered]
      exact .waits fun o ↦ hk o _ _
    · cases hold hmem fun h ↦ h
    · cases hold hmem fun h ↦ h
    · obtain ⟨rfl, rfl, rfl⟩ := Event.turned.inj (hold hmem fun h ↦ h)
      exact ⟨rfl, rfl, _, _, hrest⟩
    · rw [hrest] at heq
      cases heq
      exact Or.inr ⟨rfl, List.mem_cons_self, m, rfl, hfill⟩

/-- A call that goes on after a wait of its own keeps to the rules. -/
theorem Conducts.resume {m : Marked Event α} {own : List Event} (h : Conducts s fin m own)
    (p : Play Event ρ) : Conducts s fin (p.resume m) own := by
  unfold Play.resume
  split
  · cases h with
    | pause hstill hk => exact hk
  · cases h with
    | await hstill i hk =>
      split
      · exact hk _
      · exact .await hstill _ hk
  · exact h

section Play

variable {p : Play Event ρ} {me : Nat} {own : List Event} {r : Halted Event α}

/-- A step of a thread leads to where it stands again. -/
theorem Placed.leads {m : Marked Event α} (hm : Placed s fin m own) (key? : Option String)
    (hr : r = (p.resume m).halt me p.world.heap p.log)
    (hguards : r.heap.guards = p.world.heap.guards)
    (hnext : r.heap.nextThread = p.world.heap.nextThread) :
    ∃ first newer, Prelude p key? own first ∧
      Leads s fin p.world.heap me (first.map (Prod.mk me) ++ p.log) (first ++ own) newer r := by
  subst hr
  cases hm with
  | goes h =>
    obtain ⟨newer, hleads⟩ := ((h.resume p).halt me p.world.heap p.log).leads hguards hnext
    exact ⟨[], newer, .nothing, hleads⟩
  | @waits key flight next before k hk =>
    cases ho : p.world.outcomes[flight.getD next]? with
    | some o =>
      have hresume : p.resume (.await (flight.getD next) fun o ↦
          .mark (fun _ ↦ .filled key o) (k o)) = .mark (fun _ ↦ .filled key o) (k o) := by
        simp only [Play.resume, ho]
      rw [hresume] at hguards hnext ⊢
      obtain ⟨newer, hleads⟩ := ((hk o).halt me p.world.heap _).leads hguards hnext
      exact ⟨[.filled key o], newer, .filled rfl ho, hleads⟩
    | none =>
      have hresume : p.resume (.await (flight.getD next) fun o ↦
          .mark (fun _ ↦ .filled key o) (k o)) =
            .await (flight.getD next) fun o ↦ .mark (fun _ ↦ .filled key o) (k o) := by
        simp only [Play.resume, ho]
      rw [hresume]
      exact ⟨[], [], .nothing, rfl, id, .waits hk, fun _ _ h ↦ absurd h List.not_mem_nil,
        fun _ h ↦ absurd h List.not_mem_nil, fun h ↦ absurd h List.not_mem_nil,
        fun heq ↦ by cases heq⟩

/-- A step of a fill of the store leads to where it has begun. -/
theorem Tended.leads {key : String} {m : Marked Event (Answer String)}
    {r : Halted Event (Answer String)} (hm : Tended s key m own)
    (hr : r = (p.resume m).halt me p.world.heap p.log)
    (hguards : r.heap.guards = p.world.heap.guards)
    (hnext : r.heap.nextThread = p.world.heap.nextThread) :
    ∃ first newer, Prelude p (some key) own first ∧ .began key ∈ newer ++ (first ++ own) ∧
      Leads s fillEnd p.world.heap me (first.map (Prod.mk me) ++ p.log) (first ++ own) newer r := by
  cases hm with
  | fresh hm =>
    subst hr
    obtain ⟨newer, hleads⟩ := (hm.halt me p.world.heap _).leads hguards hnext
    exact ⟨[.began key], newer, .began rfl rfl,
      List.mem_append_right _ (List.mem_append_left _ List.mem_cons_self), hleads⟩
  | begun hbegan hm =>
    obtain ⟨first, newer, hfirst, hleads⟩ := hm.leads (some key) hr hguards hnext
    exact ⟨first, newer, hfirst, List.mem_append_right _ (List.mem_append_right _ hbegan), hleads⟩

end Play

end Remote

end TwoTier
