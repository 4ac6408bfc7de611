import TwoTier.Proofs.Engine.Chronicle

/-!
# Those who are cancelled

A task that is cancelled leaves its place in every line, and no mark. An invariant that ties the
last mark of a thread to its place in a line would break there: the mark is still the last one of
that thread, but its place is gone. It is kept of a log beside the log of the play, in which
whoever is cancelled leaves a last mark, a farewell (`Play.Sound.part`).

What a call does is not affected by the log (`Marked.exists_halt`, `Play.exists_apply`), so that
the play goes on as it does beside any other log, and its history goes on with every move
(`Play.Chronicle.goes_on`). Of the events of every kind but that of farewells the two logs say the
same as the history (`Play.Chronicle.exists_sound`).
-/

set_option autoImplicit false
set_option relaxedAutoImplicit false

namespace TwoTier

variable {ε ρ α : Type}

/-- The step of a call is the same whatever the log is, and so are the marks that it adds. -/
theorem Marked.exists_halt (m : Marked ε α) (me : Nat) (h : Heap) :
    ∃ h' new rest, ∀ l, m.halt me h l = ⟨h', new ++ l, rest⟩ := by
  induction m generalizing h with
  | act c k ih =>
    simp only [Marked.halt]
    split
    · exact ih _ _
    · exact ⟨_, [], _, fun _ ↦ rfl⟩
    · exact ⟨_, [], _, fun _ ↦ rfl⟩
  | mark e k ih =>
    obtain ⟨h', new, rest, heq⟩ := ih h
    refine ⟨h', new ++ [(me, e h)], rest, fun l ↦ ?_⟩
    rw [List.append_assoc]
    exact heq _
  | sleep wake k ih =>
    simp only [Marked.halt]
    split
    · exact ih h
    · exact ⟨_, [], _, fun _ ↦ rfl⟩
  | pop s keys deadline seen k ih =>
    simp only [Marked.halt]
    split
    · split
      · exact ih _ h
      · exact ⟨_, [], _, fun _ ↦ rfl⟩
    · split
      · exact ih _ _
      · exact ih _ _
      · split
        · exact ih _ _
        · exact ⟨_, [], _, fun _ ↦ rfl⟩
  | acquire lock k ih =>
    simp only [Marked.halt]
    split
    · exact ih _
    · exact ⟨_, [], _, fun _ ↦ rfl⟩
  | release lock k ih => exact ih _
  | loopEnd r deadline k ih =>
    simp only [Marked.halt]
    split
    · exact ih _ h
    · split
      · exact ih _ h
      · exact ⟨_, [], _, fun _ ↦ rfl⟩
  | _ => exact ⟨h, [], _, fun _ ↦ rfl⟩

namespace Play

/-- The same rules where nobody is cancelled. -/
def Rules.uncancelled (rules : Rules ε ρ) : Rules ε ρ := { rules with aborts := False }

/-- A move of the play is the same beside another log, and so are the marks that it adds. -/
theorem exists_apply (p : Play ε ρ) (m : Move ε ρ) :
    ∃ new, ∀ l, ({ p with log := l } : Play ε ρ).apply m = { p.apply m with log := new ++ l } := by
  cases m with
  | run th =>
    cases th with
    | task i =>
      obtain ⟨h', new, rest, heq⟩ := (p.resume (p.task i)).exists_halt i p.world.heap
      cases ht : p.world.tasks.find? fun t ↦ t.id = i with
      | none => exact ⟨[], fun l ↦ by simp only [Play.apply, ht, List.nil_append]⟩
      | some t =>
        refine ⟨new, fun l ↦ ?_⟩
        have hresume : ({ p with log := l } : Play ε ρ).resume (p.task i) =
            p.resume (p.task i) := rfl
        simp only [Play.apply, ht, hresume, heq]
        rfl
    | fill i =>
      obtain ⟨h', new, rest, heq⟩ := (p.resume (p.fill i)).exists_halt i p.world.heap
      cases hf : p.world.fills.find? fun f ↦ f.id = i with
      | none => exact ⟨[], fun l ↦ by simp only [Play.apply, hf, List.nil_append]⟩
      | some f =>
        refine ⟨new, fun l ↦ ?_⟩
        have hresume : ({ p with log := l } : Play ε ρ).resume (p.fill i) =
            p.resume (p.fill i) := rfl
        simp only [Play.apply, hf, hresume, heq]
        rfl
    | loop r => exact ⟨[], fun _ ↦ rfl⟩
  | _ => exact ⟨[], fun _ ↦ rfl⟩

variable {rules : Rules ε ρ} {heard : Tiers → Nat → List ε} {I : Heap → Log ε → Prop}
  {named : List Held} {p₀ p : Play ε ρ} {es : List ε} {e : ε}

/-- Whatever move is made, the history goes on with it, where only tasks are cancelled. -/
theorem Chronicle.goes_on (h : Chronicle rules heard p₀ p es) {m : Move ε ρ}
    (hm : p.Allowed rules m) (htask : ∀ i, m = .abort i → ∃ t ∈ p.world.tasks, t.id = i) :
    ∃ new, Chronicle rules heard p₀ (p.apply m) (new ++ es) := by
  by_cases hloop : ∃ r, m = .run (.loop r)
  · obtain ⟨r, rfl⟩ := hloop
    exact ⟨_, .loop r hm h⟩
  · by_cases habort : ∃ i, m = .abort i
    · obtain ⟨i, rfl⟩ := habort
      obtain ⟨t, ht, rfl⟩ := htask i rfl
      exact ⟨[], .abort t ht hm h⟩
    · obtain ⟨new, happly⟩ := p.exists_apply m
      have hlog : (p.apply m).log = new ++ p.log := congrArg Play.log (happly p.log)
      exact ⟨_, .other m new hm (not_exists.mp hloop) (not_exists.mp habort) hlog h⟩

/-- A task is cancelled and says farewell: all others go on. -/
theorem Sound.part (hs : Sound I named p) {t : Task ρ} (ht : t ∈ p.world.tasks)
    (hi : I (p.world.heap.leaveAll t.id) ((t.id, e) :: p.log)) :
    Sound I named { p.apply (.abort t.id) with log := (t.id, e) :: p.log } := by
  have hothers : ∀ {i}, i ≠ t.id → Marked.marksOf i ((t.id, e) :: p.log) = Marked.marksOf i p.log :=
    fun hi ↦ List.filter_cons_of_neg (by simpa using Ne.symm hi)
  refine ⟨hi, hs.numbered.apply (.abort t.id), fun x hx ↦ ?_, fun u hu ↦ ?_, fun f hf ↦ ?_,
    hs.named_subset⟩
  · rcases List.mem_cons.mp hx with heq | hx
    · rw [heq]
      exact hs.numbered.task_lt t ht
    · exact hs.marks x hx
  · obtain ⟨hu, hne⟩ := List.mem_filter.mp hu
    exact (hs.tasks u hu).congr (hothers (of_decide_eq_true hne))
  · exact (hs.fills f hf).congr (hothers (hs.numbered.disjoint t ht f hf).symm)

/-- An invariant that every move keeps, and that a task which is cancelled keeps with its farewell,
holds in every play that has a history, of a log that says what the history says of all but the
farewells. -/
theorem Chronicle.exists_sound (h : Chronicle rules heard p₀ p es) (hlog : p₀.log = [])
    (h₀ : Sound I rules.uncancelled.named p₀) (hI : rules.uncancelled.Keep I)
    (hpart : ∀ {h l} i, I h l → I (h.leaveAll i) ((i, e) :: l)) {f : ε → Bool} (he : f e = false)
    (hheard : ∀ t r, (heard t r).filter f = []) :
    ∃ l, Sound I rules.uncancelled.named { p with log := l } ∧
      es.filter f = (l.map Prod.snd).filter f := by
  induction h with
  | start =>
    refine ⟨p₀.log, h₀, ?_⟩
    rw [hlog]
    rfl
  | loop r hm _ ih =>
    obtain ⟨l, hs, heq⟩ := ih
    refine ⟨l, hs.apply (m := .run (.loop r)) hI hm, ?_⟩
    rw [List.filter_append, hheard, List.nil_append]
    exact heq
  | abort t ht _ _ ih =>
    obtain ⟨l, hs, heq⟩ := ih
    refine ⟨(t.id, e) :: l, hs.part ht (hpart t.id hs.inv), ?_⟩
    rw [List.map_cons, List.filter_cons_of_neg (by simpa using he)]
    exact heq
  | @other p es m new hm _ habort hnew _ ih =>
    obtain ⟨l, hs, heq⟩ := ih
    obtain ⟨new', happly⟩ := p.exists_apply m
    obtain rfl : new' = new :=
      List.append_cancel_right ((congrArg Play.log (happly p.log)).symm.trans hnew)
    have hm' : ({ p with log := l } : Play ε ρ).Allowed rules.uncancelled m := by
      cases m with
      | abort i => exact absurd rfl (habort i)
      | _ => exact hm
    have hafter := hs.apply hI hm'
    rw [happly] at hafter
    refine ⟨new' ++ l, hafter, ?_⟩
    rw [List.map_append, List.filter_append, List.filter_append, heq]

end Play

end TwoTier
