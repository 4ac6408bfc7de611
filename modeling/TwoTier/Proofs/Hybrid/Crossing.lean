import TwoTier.Proofs.Hybrid.Afar

/-!
# Copies that cross a removal

Tasks read and remove keys through one hybrid tier, whose calls to the tier behind take their time,
and nobody writes a certain key (`Crossing.Visits`). A reading asks the local tier, then the tier
behind, and leaves a copy in the local tier once it has been answered; a removal clears the local
tier, and then removes the key behind it.

A copy may cross a removal: it was read before this took effect, and is left after the local tier
was cleared. Then a reading that begins when the removal has long been answered is answered the
value that was removed. There is no other way: whatever the local tier answers was left there since
it was cleared last, and nothing is read behind it after a removal (`Crossing.Accounted`).
-/

set_option autoImplicit false
set_option relaxedAutoImplicit false

namespace TwoTier

namespace Crossing

open Hybrid (notedGet notedDel)
open Marked (marksOf)

/-- What readings and removals through a hybrid tier do. -/
inductive Event where
  /-- A reading has asked the local tier for a key. -/
  | looked (key : String) (found : Option String)
  /-- A reading has taken effect in the tier behind. -/
  | read (key : String) (a : Answer String)
  /-- A reading leaves a copy in the local tier. -/
  | copied (key value : String)
  /-- A reading is answered. -/
  | answered (key : String) (a : Answer String)
  /-- A removal has cleared a key from the local tier. -/
  | cleared (key : String)
  /-- A removal has taken effect in the tier behind. -/
  | removed (key : String) (a : Answer Unit)
  /-- A removal is answered. -/
  | deleted (key : String) (a : Answer Unit)
  deriving DecidableEq

section Calls

variable (front : Front) (r : Tier) (t : Travel) {α : Type}

/-- A local tier in front of a tier whose calls travel. -/
def afar : Hybrid := ⟨front, t.tier r⟩

/-- The tier behind, with a mark where a reading or a removal takes effect there. -/
def behind : Hybrid.Behind Event (t.tier r) where
  get key := .linger t.out <| .act (r.get key) fun a ↦
    .mark (fun _ ↦ .read key a) <| .linger t.back (.done (t.reply a))
  set := (Hybrid.Behind.silent Event r).set
  del key := .linger t.out <| .act (r.del key) fun a ↦
    .mark (fun _ ↦ .removed key a) <| .linger t.back (.done (t.reply a))
  call_get key := by
    refine (Marked.call_linger t.out _).trans (congrArg (Call.linger t.out) ?_)
    exact congrArg (Call.bind _) (funext fun _ ↦ Marked.call_linger t.back _)
  call_set := (Hybrid.Behind.silent Event r).call_set
  call_del key := by
    refine (Marked.call_linger t.out _).trans (congrArg (Call.linger t.out) ?_)
    exact congrArg (Call.bind _) (funext fun _ ↦ Marked.call_linger t.back _)

/-- The tier with a mark at each step of a reading and of a removal. -/
def observed : Hybrid.Noted Event where
  toHybrid := afar front r t
  behind := behind r t
  notes :=
    { hit := fun key v ↦ [fun _ ↦ .looked key (some v)]
      ask := fun key ↦ [fun _ ↦ .looked key none]
      copies := fun key v ↦ [fun _ ↦ .copied key v]
      answered := fun key a ↦ [fun _ ↦ .answered key a]
      cleared := fun key ↦ [fun _ ↦ .cleared key]
      deleted := fun key a ↦ [fun _ ↦ .deleted key a] }

/-! ### What follows a call to the tier behind -/

theorem behind_get_bind (key : String) (f : Answer String → Marked Event α) :
    ((behind r t).get key).bind f = .linger t.out (.act (r.get key) fun a ↦
      .mark (fun _ ↦ .read key a) <| .linger t.back (f (t.reply a))) := by
  refine (Marked.linger_bind t.out _ f).trans (congrArg (Marked.linger t.out) ?_)
  exact congrArg (Marked.act _) (funext fun a ↦ congrArg (Marked.mark _)
    (Marked.linger_bind t.back _ f))

theorem behind_del_bind (key : String) (f : Answer Unit → Marked Event α) :
    ((behind r t).del key).bind f = .linger t.out (.act (r.del key) fun a ↦
      .mark (fun _ ↦ .removed key a) <| .linger t.back (f (t.reply a))) := by
  refine (Marked.linger_bind t.out _ f).trans (congrArg (Marked.linger t.out) ?_)
  exact congrArg (Marked.act _) (funext fun a ↦ congrArg (Marked.mark _)
    (Marked.linger_bind t.back _ f))

end Calls

/-! ### Who visits the tiers -/

/-- The calls that read and remove keys through a hybrid tier, each call on its own way, and that do
nothing else by which something is put under one key. -/
inductive Visits (front : Front) (far : Far) (key : String) : ∀ {α : Type}, Marked Event α → Prop
  | done {α : Type} (a : α) : Visits front far key (.done a)
  | crash {α : Type} : Visits front far key (.crash : Marked Event α)
  | get {α : Type} {t : Travel} {j : String} {k : Answer String → Marked Event α}
      (hk : ∀ a, Visits front far key (k a)) :
      Visits front far key (notedGet (observed front far.tier t) j k)
  | del {α : Type} {t : Travel} {j : String} {k : Answer Unit → Marked Event α}
      (hk : ∀ a, Visits front far key (k a)) :
      Visits front far key (notedDel (observed front far.tier t) j k)
  | aside {α β : Type} {f : Heap → Call β} {k : β → Marked Event α}
      (hf : ∀ me h, (Call.read f).AtOnce me h (fun _ h' ↦ Spares front far key h h')
        (Spares front far key h)) (hk : ∀ b, Visits front far key (k b)) :
      Visits front far key (.act (.read f) k)
  | pause {α : Type} {k : Marked Event α} (hk : Visits front far key k) :
      Visits front far key (.pause k)
  | sleep {α : Type} {wake : Option Nat} {k : Marked Event α} (hk : Visits front far key k) :
      Visits front far key (.sleep wake k)

theorem Visits.opens {front : Front} {far : Far} {key : String} {α : Type} {m : Marked Event α}
    (hm : Visits front far key m) : Play.Opens m := by
  cases hm <;> trivial

/-- Tasks that visit the tiers, and may be cancelled. -/
def visiting (front : Front) (far : Far) (key : String) (ρ : Type) : Play.Rules Event ρ where
  call := Visits front far key
  named := []
  aborts := True

/-! ### What the history says -/

/-- A copy was left since the key was cleared last, if it was. -/
def CopiedSince (key v : String) (l : Log Event) : Prop :=
  ∀ newer d older, l = newer ++ (d, .cleared key) :: older → ∃ c, (c, .copied key v) ∈ newer

theorem CopiedSince.cons {key v : String} {l : Log Event} (h : CopiedSince key v l) {e : Event}
    (he : e ≠ .cleared key) (th : Nat) : CopiedSince key v ((th, e) :: l) := by
  intro newer d older hlog
  cases newer with
  | nil => exact absurd (Prod.mk.inj (List.cons.inj hlog).1).2 he
  | cons x newer =>
    obtain ⟨c, hc⟩ := h newer d older (List.cons.inj hlog).2
    exact ⟨c, List.mem_cons_of_mem _ hc⟩

theorem copiedSince_copied (key v : String) (th : Nat) (l : Log Event) :
    CopiedSince key v ((th, .copied key v) :: l) := by
  intro newer d older hlog
  cases newer with
  | nil => cases (List.cons.inj hlog).1
  | cons x newer =>
    rw [← (List.cons.inj hlog).1]
    exact ⟨th, List.mem_cons_self⟩

/-- What has led to the answer of a reading: the local tier held the value, or the tier behind was
asked. -/
def Led (g : Nat) (key : String) (l : Log Event) : Answer String → Prop
  | .ok v => (∃ older, marksOf g l = (g, .looked key (some v)) :: older) ∨ ∃ older, marksOf g l =
      [(g, .copied key v), (g, .read key (.ok v))] ++ (g, .looked key none) :: older
  | .error _ => ∃ a older, marksOf g l = [(g, .read key a)] ++ (g, .looked key none) :: older

/-- What goes before the mark of a thread. -/
def Lawful (key : String) (th : Nat) (l : Log Event) : Event → Prop
  | .looked j (some v) => j = key → CopiedSince key v l
  | .read j (.ok _) => j = key → ∀ d, (d, .removed key (.ok ())) ∉ l
  | .copied j v => ∃ older, marksOf th l = (th, .read j (.ok v)) :: older
  | .answered j a => Led th j l a
  | .deleted j (.ok ()) =>
    ∃ older, marksOf th l = (th, .removed j (.ok ())) :: (th, .cleared j) :: older
  | _ => True

/-- What the local tier answers under a key was left there since it was cleared last, and behind it
nothing is left once the key was removed. -/
structure Accounted (front : Front) (far : Far) (key : String) (h : Heap) (l : Log Event) :
    Prop where
  near : ∀ v, front.Shows h key v → CopiedSince key v l
  far : ∀ d, (d, .removed key (.ok ())) ∈ l → far.text h key = none
  lawful : ∀ newer th e older, l = newer ++ (th, e) :: older → Lawful key th older e

section Accounted

variable {front : Front} {far : Far} {key : String} {h h' : Heap} {l : Log Event} {me : Nat}

theorem marksOf_cons (me : Nat) (e : Event) (l : Log Event) :
    marksOf me ((me, e) :: l) = (me, e) :: marksOf me l :=
  List.filter_cons_of_pos (by simp)

/-- Nothing has happened yet. -/
theorem accounted_nil (h : Heap) : Accounted front far key h [] where
  near _ _ newer _ _ hnil := by cases newer <;> cases hnil
  far _ hd := absurd hd List.not_mem_nil
  lawful newer _ _ _ hnil := by cases newer <;> cases hnil

namespace Accounted

theorem spared (hc : Accounted front far key h l) (hs : Spares front far key h h') :
    Accounted front far key h' l where
  near v hv := hc.near v (hs.near v hv)
  far d hd := by
    rw [Option.eq_none_iff_forall_ne_some]
    intro u hu
    have hbefore := hs.far u hu
    rw [hc.far d hd] at hbefore
    cases hbefore
  lawful := hc.lawful

theorem lawful_cons (hc : Accounted front far key h l) {e : Event} (he : Lawful key me l e) :
    ∀ newer th e' older, (me, e) :: l = newer ++ (th, e') :: older → Lawful key th older e' := by
  intro newer th e' older hlog
  cases newer with
  | nil =>
    obtain ⟨hhead, rfl⟩ := List.cons.inj hlog
    obtain ⟨rfl, rfl⟩ := Prod.mk.inj hhead
    exact he
  | cons x newer => exact hc.lawful newer th e' older (List.cons.inj hlog).2

/-- One more mark, of nothing that is put into the tiers or taken from them. -/
theorem mark (hc : Accounted front far key h l) {e : Event} (he : Lawful key me l e)
    (hcleared : e ≠ .cleared key) (hremoved : e ≠ .removed key (.ok ())) :
    Accounted front far key h ((me, e) :: l) where
  near v hv := (hc.near v hv).cons hcleared me
  far d hd := by
    rcases List.mem_cons.mp hd with heq | hd
    · exact absurd (Prod.mk.inj heq).2.symm hremoved
    · exact hc.far d hd
  lawful := hc.lawful_cons he

/-- The local tier was cleared from a key. -/
theorem cleared (hc : Accounted front far key h l) {j : String}
    (hgone : ∀ v, ¬ front.Shows h j v) : Accounted front far key h ((me, .cleared j) :: l) where
  near v hv := by
    refine (hc.near v hv).cons (fun heq ↦ ?_) me
    rw [Event.cleared.inj heq] at hgone
    exact hgone v hv
  far d hd := hc.far d ((List.mem_cons.mp hd).resolve_left fun heq ↦ by cases heq)
  lawful := hc.lawful_cons trivial

/-- A key was removed behind the local tier. -/
theorem removed (hc : Accounted front far key h l) {j : String} {a : Answer Unit}
    (hgone : a = .ok () → far.text h j = none) :
    Accounted front far key h ((me, .removed j a) :: l) where
  near v hv := (hc.near v hv).cons (fun heq ↦ by cases heq) me
  far d hd := by
    rcases List.mem_cons.mp hd with heq | hd
    · obtain ⟨rfl, rfl⟩ := Event.removed.inj (Prod.mk.inj heq).2
      exact hgone rfl
    · exact hc.far d hd
  lawful := hc.lawful_cons trivial

/-- Nothing is read behind the local tier once it was removed there. -/
theorem read (hc : Accounted front far key h l) (hs : Spares front far key h h') {j : String}
    {a : Answer String} (ha : ∀ v, a = .ok v → far.text h j = some v) :
    Accounted front far key h' ((me, .read j a) :: l) := by
  refine (hc.spared hs).mark ?_ (fun heq ↦ by cases heq) fun heq ↦ by cases heq
  cases a with
  | error f => trivial
  | ok v =>
    rintro rfl d hd
    have htext := ha v rfl
    rw [hc.far d hd] at htext
    cases htext

/-- A copy is left of what has just been read. -/
theorem copy (hc : Accounted front far key h l) {j v : String}
    (hput : (∀ u, front.Shows h' key u → front.Shows h key u ∨ key = j ∧ u = v) ∧
      far.text h' key = far.text h key)
    (hread : ∃ older, marksOf me l = (me, .read j (.ok v)) :: older) :
    Accounted front far key h' ((me, .copied j v) :: l) where
  near u hu := by
    rcases hput.1 u hu with hbefore | ⟨rfl, rfl⟩
    · exact (hc.near u hbefore).cons (fun heq ↦ by cases heq) me
    · exact copiedSince_copied _ _ me l
  far d hd := by
    rw [hput.2]
    exact hc.far d ((List.mem_cons.mp hd).resolve_left fun heq ↦ by cases heq)
  lawful := hc.lawful_cons hread

end Accounted

variable {α : Type} (hfar : far.Atomic front) {t : Travel} {j : String}
include hfar

/-- A reading keeps the accounts. -/
theorem safe_get {k : Answer String → Marked Event α}
    (hk : ∀ a h l, Accounted front far key h l →
      Marked.Safe (Accounted front far key) me (k a) h l)
    (hc : Accounted front far key h l) :
    Marked.Safe (Accounted front far key) me (notedGet (observed front far.tier t) j k) h l := by
  have hspared : ∀ {h h' : Heap} {l : Log Event}, Accounted front far key h l →
      (∀ i, Spares front far i h h') → Accounted front far key (h'.leaveAll me) l :=
    fun hc hs ↦ (hc.spared (hs key)).spared (hfar.spares_threads rfl rfl)
  refine Marked.Safe.of_atOnce (F := fun _ ↦ False) (hfar.localHit rfl) (fun found h₁ hfound ↦ ?_)
    fun _ hfail ↦ hfail.elim
  obtain ⟨hs₁, hshown⟩ := hfound
  have hc₁ := hc.spared (hs₁ key)
  cases found with
  | some v =>
    have hlooked : Accounted front far key h₁ ((me, .looked j (some v)) :: l) := by
      refine hc₁.mark ?_ (fun heq ↦ by cases heq) fun heq ↦ by cases heq
      rintro rfl
      exact hc.near v (hshown v rfl)
    refine hk _ _ _ (hlooked.mark ?_ (fun heq ↦ by cases heq) fun heq ↦ by cases heq)
    exact Or.inl ⟨_, marksOf_cons me _ l⟩
  | none =>
    have hlooked : Accounted front far key h₁ ((me, .looked j none) :: l) :=
      hc₁.mark trivial (fun heq ↦ by cases heq) fun heq ↦ by cases heq
    change Marked.Safe _ me (((behind far.tier t).get j).bind _) h₁ _
    rw [behind_get_bind]
    refine Marked.safe_linger t.out hlooked fun h₂ l₂ hc₂ hmarks₂ ↦ ?_
    rw [marksOf_cons] at hmarks₂
    refine Marked.Safe.of_atOnce (hfar.get me h₂ j) (fun a h₃ ha ↦ ?_) fun _ hs ↦ hspared hc₂ hs
    obtain ⟨hs₃, htext⟩ := ha
    refine Marked.safe_linger t.back (hc₂.read (hs₃ key) htext) fun h₄ l₄ hc₄ hmarks₄ ↦ ?_
    rw [marksOf_cons, hmarks₂] at hmarks₄
    cases hreply : t.reply a with
    | error f =>
      refine hk _ _ _ (hc₄.mark ?_ (fun heq ↦ by cases heq) fun heq ↦ by cases heq)
      exact ⟨a, _, hmarks₄⟩
    | ok v =>
      rw [Travel.eq_of_reply hreply] at hmarks₄
      refine Marked.Safe.of_atOnce (hfar.populate rfl) (fun _ h₅ hput ↦ ?_) fun h₅ hput ↦ ?_
      · have hcopied := hc₄.copy (hput key) ⟨_, hmarks₄⟩
        refine hk _ _ _ (hcopied.mark ?_ (fun heq ↦ by cases heq) fun heq ↦ by cases heq)
        exact Or.inr ⟨_, by rw [marksOf_cons, hmarks₄]; rfl⟩
      · exact (hc₄.copy (hput key) ⟨_, hmarks₄⟩).spared (hfar.spares_threads rfl rfl)

/-- A removal keeps the accounts. -/
theorem safe_del {k : Answer Unit → Marked Event α}
    (hk : ∀ a h l, Accounted front far key h l →
      Marked.Safe (Accounted front far key) me (k a) h l)
    (hc : Accounted front far key h l) :
    Marked.Safe (Accounted front far key) me (notedDel (observed front far.tier t) j k) h l := by
  refine Marked.Safe.of_atOnce (F := fun _ ↦ False) hfar.clear (fun _ h₁ hcleared ↦ ?_)
    fun _ hfail ↦ hfail.elim
  obtain ⟨hs₁, hgone⟩ := hcleared
  change Marked.Safe _ me (((behind far.tier t).del j).bind _) h₁ _
  rw [behind_del_bind]
  refine Marked.safe_linger t.out ((hc.spared (hs₁ key)).cleared hgone) fun h₂ l₂ hc₂ hmarks₂ ↦ ?_
  rw [marksOf_cons] at hmarks₂
  refine Marked.Safe.of_atOnce (hfar.del me h₂ j) (fun a h₃ ha ↦ ?_)
    fun _ hs ↦ (hc₂.spared (hs key)).spared (hfar.spares_threads rfl rfl)
  obtain ⟨hs₃, hnone⟩ := ha
  refine Marked.safe_linger t.back ((hc₂.spared (hs₃ key)).removed hnone) fun h₄ l₄ hc₄ hmarks₄ ↦ ?_
  rw [marksOf_cons, hmarks₂] at hmarks₄
  refine hk _ _ _ (hc₄.mark ?_ (fun heq ↦ by cases heq) fun heq ↦ by cases heq)
  cases hreply : t.reply a with
  | error f => trivial
  | ok b =>
    rw [Travel.eq_of_reply hreply] at hmarks₄
    exact ⟨_, hmarks₄⟩

theorem Visits.safe {m : Marked Event α} (hm : Visits front far key m)
    (hc : Accounted front far key h l) : Marked.Safe (Accounted front far key) me m h l := by
  have hthreads : ∀ {h : Heap} {l : Log Event}, Accounted front far key h l →
      Accounted front far key (h.leaveAll me) l :=
    fun hc ↦ hc.spared (hfar.spares_threads rfl rfl)
  induction hm generalizing h l with
  | done a => exact hthreads hc
  | crash => exact hthreads hc
  | get _ ih => exact safe_get hfar (fun a _ _ hc' ↦ ih a hc') hc
  | del _ ih => exact safe_del hfar (fun a _ _ hc' ↦ ih a hc') hc
  | aside hf _ ih =>
    exact Marked.Safe.of_atOnce (hf me h) (fun b h' hs ↦ ih b (hc.spared hs))
      fun h' hs ↦ hthreads (hc.spared hs)
  | pause _ ih => exact ⟨hc, fun _ _ hc' _ ↦ ih hc'⟩
  | sleep _ ih => exact ⟨hc, fun _ _ hc' _ ↦ ih hc'⟩

theorem keep_visiting (ρ : Type) : (visiting front far key ρ).Keep (Accounted front far key) where
  kept :=
    { thread _ _ hc := hc.spared (hfar.spares_threads rfl rfl)
      clock hle hc := hc.spared (hfar.spares_clock hle)
      release _ hc := hc.spared (hfar.spares_release _)
      loop n _ _ hc := hc.spared (hfar.spares_loop _ n) }
  aborts _ _ _ _ hc := hc.spared (hfar.spares_threads rfl rfl)
  opens := Visits.opens
  safe hm _ _ _ hc _ := hm.safe hfar hc

end Accounted

/-! ### What a reading is answered after a removal -/

section Marks

variable {g d : Nat} {key : String} {l : Log Event}

/-- The marks of a reading, from where it has looked into the local tier. -/
theorem eq_of_marksOf {during older rest : Log Event} {m : Log Event} {j : String}
    {r r' : Option String} (hduring : ∀ j r, (g, .looked j r) ∉ during)
    (hms : ∀ j r, (g, .looked j r) ∉ m)
    (h : marksOf g (during ++ (g, .looked key r) :: older) = m ++ (g, .looked j r') :: rest) :
    marksOf g during = m ∧ r = r' := by
  have hmine : ∀ j r, (g, .looked j r) ∉ marksOf g during :=
    fun j r hmem ↦ hduring j r (List.mem_filter.mp hmem).1
  have hsplit : marksOf g during ++ (g, .looked key r) :: marksOf g older =
      m ++ (g, .looked j r') :: rest := by
    rw [← h, ← marksOf_cons, marksOf, marksOf, marksOf, List.filter_append]
  rcases List.append_eq_append_iff.mp hsplit with ⟨c, hc, hrest⟩ | ⟨c, hc, hrest⟩
  · cases c with
    | nil =>
      rw [List.append_nil] at hc
      exact ⟨hc.symm, (Event.looked.inj (Prod.mk.inj (List.cons.inj hrest).1).2).2⟩
    | cons x c =>
      refine absurd ?_ (hms key r)
      rw [hc, (List.cons.inj hrest).1]
      exact List.mem_append_right _ List.mem_cons_self
  · cases c with
    | nil =>
      rw [List.append_nil] at hc
      exact ⟨hc, (Event.looked.inj (Prod.mk.inj (List.cons.inj hrest).1).2).2.symm⟩
    | cons x c =>
      refine absurd ?_ (hmine j r')
      rw [hc, (List.cons.inj hrest).1]
      exact List.mem_append_right _ List.mem_cons_self

/-- The moments at which a removal has cleared the local tier and taken effect behind it: these are
its last marks. -/
theorem exists_of_deleted (h : Lawful key d l (.deleted key (.ok ()))) :
    ∃ since clearing before,
      l = since ++ (d, .removed key (.ok ())) :: (clearing ++ (d, .cleared key) :: before) ∧
        (∀ x ∈ since, x.1 ≠ d) ∧ ∀ x ∈ clearing, x.1 ≠ d := by
  obtain ⟨older, hmarks⟩ := h
  obtain ⟨since, rest, rfl, hsince, -, hrest⟩ := List.filter_eq_cons_iff.mp hmarks
  obtain ⟨clearing, before, rfl, hclearing, -⟩ := List.filter_eq_cons_iff.mp hrest
  refine ⟨since, clearing, before, rfl, fun x hx ↦ ?_, fun x hx ↦ ?_⟩
  · simpa using hsince x hx
  · simpa using hclearing x hx

/-- What precedes a mark in a history precedes every later mark. -/
theorem mem_of_split {newer older newer' older' : Log Event} {x y : Nat × Event}
    (h : newer ++ x :: older = newer' ++ y :: older') (hy : y ∉ older) (hne : x ≠ y) :
    x ∈ older' := by
  rcases List.append_eq_append_iff.mp h with ⟨c, -, hrest⟩ | ⟨c, -, hrest⟩
  · cases c with
    | nil => exact absurd (List.cons.inj hrest).1 hne
    | cons z c =>
      refine absurd ?_ hy
      rw [(List.cons.inj hrest).2]
      exact List.mem_append_right _ List.mem_cons_self
  · cases c with
    | nil => exact absurd (List.cons.inj hrest).1.symm hne
    | cons z c =>
      rw [(List.cons.inj hrest).2]
      exact List.mem_append_right _ List.mem_cons_self

end Marks

section Answers

variable {front : Front} {far : Far} {key : String} {h : Heap} {l : Log Event}

/-- What is copied once a key was removed behind the local tier was read before. -/
theorem Accounted.read_of_copied (hc : Accounted front far key h l) {newer older : Log Event}
    {c d : Nat} {v : String} (hlog : l = newer ++ (d, .removed key (.ok ())) :: older)
    (hcopied : (c, .copied key v) ∈ l) : (c, .read key (.ok v)) ∈ older := by
  obtain ⟨later, earlier, hsplit⟩ := List.append_of_mem hcopied
  obtain ⟨rest, hmarks⟩ := hc.lawful later c _ earlier hsplit
  obtain ⟨between, sooner, rfl, -⟩ := List.filter_eq_cons_iff.mp hmarks
  have hread : l =
      (later ++ (c, .copied key v) :: between) ++ (c, .read key (.ok v)) :: sooner := by
    rw [hsplit, List.append_assoc]
    rfl
  have hnone := hc.lawful _ c _ sooner hread rfl d
  exact mem_of_split (hread.symm.trans hlog) hnone fun heq ↦ by cases heq

/-- A reading that is answered by the tier behind is answered no value, once the key was removed
there before it looked into the local tier; and where it is answered a value, the local tier held
it. -/
theorem Accounted.found_of_answered (hc : Accounted front far key h l)
    {later during older : Log Event} {g d : Nat} {a : Answer String} {r : Option String}
    (hlog : l = later ++ (g, .answered key a) :: (during ++ (g, .looked key r) :: older))
    (hduring : ∀ j r, (g, .looked j r) ∉ during) (hremoved : (d, .removed key (.ok ())) ∈ older) :
    (r = none ∧ (∃ f, a = .error f) ∧ ∃ b, (g, .read key b) ∈ during) ∨
      ∃ v, a = .ok v ∧ r = some v := by
  have hled : Led g key (during ++ (g, .looked key r) :: older) a := hc.lawful later g _ _ hlog
  have hmem : ∀ {e : Event}, (g, e) ∈ marksOf g during → (g, e) ∈ during :=
    fun he ↦ (List.mem_filter.mp he).1
  cases a with
  | error f =>
    obtain ⟨b, rest, hmarks⟩ := hled
    obtain ⟨hasked, hnone⟩ := eq_of_marksOf hduring (fun j r ↦ by simp) hmarks
    refine Or.inl ⟨hnone, ⟨f, rfl⟩, b, hmem ?_⟩
    rw [hasked]
    exact List.mem_cons_self
  | ok v =>
    rcases hled with ⟨rest, hmarks⟩ | ⟨rest, hmarks⟩
    · exact Or.inr ⟨v, rfl, (eq_of_marksOf (m := []) hduring (fun j r ↦ by simp) hmarks).2⟩
    · -- the value was read behind the local tier, from where the key had been removed before
      have hread : (g, .read key (.ok v)) ∈ during := by
        refine hmem ?_
        rw [(eq_of_marksOf hduring (fun j r ↦ by simp) hmarks).1]
        exact List.mem_cons_of_mem _ List.mem_cons_self
      obtain ⟨since, sooner, rfl⟩ := List.append_of_mem hread
      refine absurd ?_ (hc.lawful (later ++ (g, .answered key (.ok v)) :: since) g
        (.read key (.ok v)) (sooner ++ (g, .looked key r) :: older) ?_ rfl d)
      · exact List.mem_append_right _ (List.mem_cons_of_mem _ hremoved)
      · rw [hlog]
        simp

end Answers

/-- A removal has been answered, and a reading begins afterwards. Either the local tier holds
nothing, the tier behind is asked, and the reading is answered a miss or a failure; or it is
answered what the local tier holds, which a reading has left there after the removal had cleared it,
and had read behind it before the removal took effect there. The readings and the removals are those
of the hybrid tier, marks aside. -/
theorem answered_after_removal {front : Front} {far : Far} (hfar : far.Atomic front) {now : Nat}
    {tiers : Tiers} {ρ : Type} {p : Play Event ρ} {key : String} {g d : Nat} {a : Answer String}
    {r : Option String} {later during between older : Log Event}
    (hp : Play.Reachable (visiting front far key ρ) (.opening now tiers []) p)
    (hlog : p.log = later ++ (g, .answered key a) :: (during ++ (g, .looked key r) ::
      (between ++ (d, .deleted key (.ok ())) :: older)))
    (hduring : ∀ j r, (g, .looked j r) ∉ during) :
    (∀ t, (observed front far.tier t).Links) ∧ ∃ since clearing before,
      older = since ++ (d, .removed key (.ok ())) :: (clearing ++ (d, .cleared key) :: before) ∧
        (∀ x ∈ since ++ clearing, x.1 ≠ d) ∧
        ((r = none ∧ (∃ f, a = .error f) ∧ ∃ b, (g, .read key b) ∈ during) ∨
          ∃ v, a = .ok v ∧ r = some v ∧ ∃ c, (c, .copied key v) ∈ between ++ since ++ clearing ∧
            (c, .read key (.ok v)) ∈ clearing ++ before) := by
  have hc : Accounted front far key p.world.heap p.log :=
    (hp.sound (keep_visiting hfar ρ) (Play.sound_opening (accounted_nil _))).inv
  have hdeleted : p.log = (later ++ (g, .answered key a) :: (during ++ (g, .looked key r) ::
      between)) ++ (d, .deleted key (.ok ())) :: older := by
    rw [hlog]
    simp
  obtain ⟨since, clearing, before, rfl, hsince, hclearing⟩ :=
    exists_of_deleted (hc.lawful _ d _ older hdeleted)
  refine ⟨fun t ↦ (observed front far.tier t).links, since, clearing, before, rfl,
    fun x hx ↦ (List.mem_append.mp hx).elim (hsince x) (hclearing x),
    (hc.found_of_answered (d := d) hlog hduring (by simp)).imp id ?_⟩
  rintro ⟨v, rfl, rfl⟩
  -- what the local tier held was copied since it was cleared
  have hlooked : p.log = (later ++ (g, .answered key (.ok v)) :: during) ++
      (g, .looked key (some v)) :: (between ++ (d, .deleted key (.ok ())) :: (since ++
        (d, .removed key (.ok ())) :: (clearing ++ (d, .cleared key) :: before))) := by
    rw [hlog]
    simp
  have hcopies : CopiedSince key v _ := hc.lawful _ g _ _ hlooked rfl
  obtain ⟨c, hcopied⟩ := hcopies (between ++ (d, .deleted key (.ok ())) ::
    (since ++ (d, .removed key (.ok ())) :: clearing)) d before (by simp)
  have hcopied : (c, .copied key v) ∈ between ++ since ++ clearing := by
    simpa [or_assoc] using hcopied
  -- and what was copied was read before the removal
  have hremoved : p.log = (later ++ (g, .answered key (.ok v)) :: (during ++
      (g, .looked key (some v)) :: (between ++ (d, .deleted key (.ok ())) :: since))) ++
        (d, .removed key (.ok ())) :: (clearing ++ (d, .cleared key) :: before) := by
    rw [hlog]
    simp
  have hmem : (c, .copied key v) ∈ p.log := by
    rw [hlooked]
    simp only [List.mem_append, List.mem_cons] at hcopied ⊢
    tauto
  have hread := hc.read_of_copied hremoved hmem
  exact ⟨v, rfl, rfl, c, hcopied, by simpa using hread⟩

/-- A value is read and copied, and removed. The next reading is a miss. -/
theorem answered_after_removal_of_copied :
    let front : Front := ⟨0, ⟨0, 0⟩, 1, { (default : HybridSettings) with populationSecs := 60 }⟩
    let x : StoreHandle := ⟨0, 2⟩
    let tiers := (Tiers.empty.setLocal 0 (.create ⟨fun _ ↦ 0, id⟩ ⟨2, .random, 1⟩)).setStore 0
      (Store.set 0 "k" "v" 0 .empty).2
    let opening : Play Event Unit := .opening 0 tiers []
    let t : Travel := ⟨[.turn], [.turn], none⟩
    let c := observed front x.far.tier t
    let code : Marked Event Unit := notedGet c "k" fun _ ↦ notedDel c "k" fun _ ↦
      notedGet c "k" fun _ ↦ .done ()
    let copied := (((opening.apply (.spawn [] code)).apply (.run (.task 0))).apply
      (.run (.task 0))).apply (.run (.task 0))
    let deleted := (copied.apply (.run (.task 0))).apply (.run (.task 0))
    let last := (deleted.apply (.run (.task 0))).apply (.run (.task 0))
    let a : Answer String := .error .notFound
    let during : Log Event := [(0, .read "k" a)]
    let older : Log Event := [(0, .removed "k" (.ok ())), (0, .cleared "k"),
      (0, .answered "k" (.ok "v")), (0, .copied "k" "v"), (0, .read "k" (.ok "v")),
      (0, .looked "k" none)]
    Play.Reachable (visiting front x.far "k" Unit) opening last ∧
      last.log = [] ++ (0, .answered "k" a) :: (during ++ (0, .looked "k" none) ::
        ([] ++ (0, .deleted "k" (.ok ())) :: older)) ∧
      (∃ f, a = .error f) ∧ ∃ b, (0, .read "k" b) ∈ during := by
  intro front x tiers opening t c code copied deleted last a during older
  have hcode : Visits front x.far "k" code := .get fun _ ↦ .del fun _ ↦ .get fun _ ↦ .done ()
  have hcopied : Play.Reachable (visiting front x.far "k" Unit) opening copied :=
    .move (.run (.task 0)) ⟨2, by decide⟩ (.move (.run (.task 0)) ⟨1, by decide⟩
      (.move (.run (.task 0)) ⟨0, by decide⟩ (.move (.spawn [] code) hcode .start)))
  have hdeleted : Play.Reachable (visiting front x.far "k" Unit) opening deleted :=
    .move (.run (.task 0)) ⟨4, by decide⟩ (.move (.run (.task 0)) ⟨3, by decide⟩ hcopied)
  have hlast : Play.Reachable (visiting front x.far "k" Unit) opening last :=
    .move (.run (.task 0)) ⟨6, by decide⟩ (.move (.run (.task 0)) ⟨5, by decide⟩ hdeleted)
  have hlog : last.log = [] ++ (0, .answered "k" a) :: (during ++ (0, .looked "k" none) ::
      ([] ++ (0, .deleted "k" (.ok ())) :: older)) := by decide
  obtain ⟨-, -, -, -, -, -, ⟨-, hanswer⟩ | ⟨v, hv, -⟩⟩ :=
    answered_after_removal (x.atomic_far front) hlast hlog fun j r hmem ↦ by simp [during] at hmem
  · exact ⟨hlast, hlog, hanswer⟩
  · simp [a] at hv

/-- A reading has read a value behind the local tier and has not been answered yet when the key is
removed from both tiers. Its copy is left after the local tier was cleared: the next reading is
answered the value, after the removal was answered, and the tier behind holds nothing. -/
theorem answered_of_crossing :
    let front : Front := ⟨0, ⟨0, 0⟩, 1, { (default : HybridSettings) with populationSecs := 60 }⟩
    let x : StoreHandle := ⟨0, 2⟩
    let c := afar front x.tier ⟨[.turn], [.turn], none⟩
    let reader : Call (Answer Unit × Answer String) := do return (.ok (), ← c.get "k")
    let remover : Call (Answer Unit × Answer String) := do return (← c.del "k", ← c.get "k")
    let first : World (Answer Unit × Answer String) := .opening 0
      ((Tiers.empty.setLocal 0 (.create ⟨fun _ ↦ 0, id⟩ ⟨2, .random, 1⟩)).setStore 0
        (Store.set 0 "k" "v" 0 .empty).2)
    let moves : List (Move (Answer Unit × Answer String)) := [.spawn [] reader, .spawn [] remover,
      .run (.task 0), .run (.task 0), .run (.task 1), .run (.task 1)]
    let removed := moves.foldl World.apply first
    let last := (removed.apply (.run (.task 0))).apply (.run (.task 1))
    first.able moves = true ∧ removed.able [.run (.task 0), .run (.task 1)] = true ∧
      x.far.text removed.heap "k" = none ∧ x.far.text last.heap "k" = none ∧
      last.conclusions[0]? = some (.answer (.ok (), .ok "v")) ∧
      last.conclusions[1]? = some (.answer (.ok (), .ok "v")) := by
  intro front x c reader remover first moves removed last
  exact ⟨by decide +kernel, by decide +kernel, by decide +kernel, by decide +kernel,
    by decide +kernel, by decide +kernel⟩

end Crossing

end TwoTier
