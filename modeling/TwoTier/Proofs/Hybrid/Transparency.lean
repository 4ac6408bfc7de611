import Mathlib.Algebra.Ring.Nat
import TwoTier.Proofs.Engine.Play
import TwoTier.Proofs.Hybrid.Coherence
import TwoTier.Proofs.Hybrid.Noted

/-!
# The local tier cannot be seen

Any number of tasks read, write and remove keys through a hybrid tier over a store, and fill them;
they may close its local tier, and do whatever they like elsewhere (`Hybrid.Uses`). The steps of
their calls may be interleaved in any way. Then a read answers what was written last, as if there
were no local tier (`Hybrid.get_transparent`).

Writes, removals and fills are marked where the store has taken them (`Hybrid.marked`); without the
marks they are the operations of the tier, and so is its end.

The invariant is `Hybrid.Coherent`. A write goes to the store first, and its mark stands from there
on, while the local tier may still hold a copy of the write before; the same step replaces it.
-/

set_option autoImplicit false
set_option relaxedAutoImplicit false

namespace TwoTier

/-- There is room for the deadline of what is kept for less than 2^55 seconds. -/
theorem Expiry.after_ne_none {now ttl : Nat} (hnow : now < Clock.secs (2 ^ 63 - 2 ^ 55))
    (httl : ttl < Clock.secs (2 ^ 55)) : Expiry.after now ttl ≠ none := by
  have hroom : now + ttl < Clock.limit := by
    unfold Clock.limit
    unfold Clock.secs at hnow httl ⊢
    omega
  unfold Expiry.after
  rw [if_pos hroom]
  split <;> exact Option.some_ne_none _

namespace Hybrid

/-- A write or a fill is marked once the store has taken the value, and a removal once it is
completed. -/
def marking : Notes Mark where
  wrote key v ttl
    | .ok _ => [fun h ↦ .wrote key ⟨v, h.now, ttl⟩]
    | .error _ => []
  filled key v ttl
    | .ok _ => [fun h ↦ .wrote key ⟨v, h.now, ttl⟩]
    | .error _ => []
  deleted key
    | .ok _ => [fun _ ↦ .deleted key]
    | .error _ => []

/-- A local tier in front of a store, with these marks. -/
def marked (front : Front) (x : StoreHandle) : Noted Mark :=
  ⟨layered front x, .silent Mark x.tier, marking⟩

/-- To close a hybrid tier is to stop its listener and to close both tiers, without a mark. -/
def closing (front : Front) (x : StoreHandle) {α : Type} (k : Answer Unit → Marked Mark α) :
    Marked Mark α :=
  notedClose (layered front x) (Listener.notedStop {}) k

/-! ### Tasks that use the hybrid tier -/

/-- The calls that write to a local tier and the store behind it only through the hybrid tier over
them. What they do elsewhere is quiet for both; any step may be followed by any other. -/
inductive Uses (front : Front) (x : StoreHandle) : ∀ {α : Type}, Marked Mark α → Prop
  | done {α : Type} (a : α) : Uses front x (.done a)
  | crash {α : Type} : Uses front x (.crash : Marked Mark α)
  | get {α : Type} {key : String} {k : Answer String → Marked Mark α}
      (hk : ∀ a, Uses front x (k a)) : Uses front x (.act ((layered front x).get key) k)
  | contains {α : Type} {key : String} {k : Answer Bool → Marked Mark α}
      (hk : ∀ a, Uses front x (k a)) : Uses front x (.act ((layered front x).contains key) k)
  | set {α : Type} {key v : String} {ttl : Nat} {k : Answer Unit → Marked Mark α}
      (hk : ∀ a, Uses front x (k a)) : Uses front x (notedSet (marked front x) key v ttl k)
  | del {α : Type} {key : String} {k : Answer Unit → Marked Mark α}
      (hk : ∀ a, Uses front x (k a)) : Uses front x (notedDel (marked front x) key k)
  | getOrSet {α : Type} {key : String} {ttl : Nat} {fetch : Marked Mark (Except String String)}
      {k : Answer String → Marked Mark α} (hfetch : Uses front x fetch)
      (hk : ∀ a, Uses front x (k a)) :
      Uses front x (notedGetOrSet (marked front x) key ttl fetch k)
  | close {α : Type} {k : Answer Unit → Marked Mark α} (hk : ∀ a, Uses front x (k a)) :
      Uses front x (closing front x k)
  | closeNear {α : Type} {k : Answer Unit → Marked Mark α} (hk : ∀ a, Uses front x (k a)) :
      Uses front x (.act front.near.tier.close k)
  | look {α β : Type} {f : Heap → β} {k : β → Marked Mark α} (hk : ∀ b, Uses front x (k b)) :
      Uses front x (.act (Call.look f) k)
  | elsewhere {α β : Type} {f : Heap → β × Tiers} {k : β → Marked Mark α}
      (hquiet : ∀ h, Tiers.Quiet front.near.cache x.store h.tiers (f h).2)
      (hk : ∀ b, Uses front x (k b)) : Uses front x (.act (Call.atomically f) k)
  | pause {α : Type} {k : Marked Mark α} (hk : Uses front x k) : Uses front x (.pause k)
  | sleep {α : Type} {wake : Option Nat} {k : Marked Mark α} (hk : Uses front x k) :
      Uses front x (.sleep wake k)
  | join {α : Type} {g : Nat} {key : String} {fill : Marked Mark (Answer String)}
      {k : Answer String → Marked Mark α} (hfill : Uses front x fill)
      (hk : ∀ a, Uses front x (k a)) : Uses front x (.join g key fill k)
  | acquire {α : Type} {m : Lock} {k : Marked Mark α} (hk : Uses front x k) :
      Uses front x (.acquire m k)
  | release {α : Type} {m : Lock} {k : Marked Mark α} (hk : Uses front x k) :
      Uses front x (.release m k)
  | loopEnd {α : Type} {r : Nat} {deadline : Option Nat} {k : Bool → Marked Mark α}
      (hk : ∀ b, Uses front x (k b)) : Uses front x (.loopEnd r deadline k)

variable {front : Front} {x : StoreHandle} {α β : Type}

theorem Uses.opens {m : Marked Mark α} (hm : Uses front x m) : Play.Opens m := by
  cases hm <;> trivial

/-- The invariant: the local tier and the store agree with the marks under all keys. -/
def Agreed (front : Front) (x : StoreHandle) : Heap → Log Mark → Prop :=
  Coherent front.near.cache x.store fun _ ↦ True

theorem Coherent.congr {l s : Nat} {P : String → Prop} {h h' : Heap} {log : Log Mark}
    (hc : Coherent l s P h log) (hnow : h'.now = h.now) (htiers : h'.tiers = h.tiers) :
    Coherent l s P h' log := by
  refine hc.quiet (Nat.le_of_eq hnow.symm) ?_
  rw [htiers]
  exact .refl _

theorem kept_agreed : Play.Kept (Agreed front x) [] where
  thread _ _ hc := hc.congr rfl rfl
  clock hnow hc := hc.quiet hnow (.refl _)
  loop _ _ _ hc := hc.quiet (Nat.le_refl _)
    ((Tiers.quiet_stepLoop _ _).trans (Tiers.quiet_setLoop _ _ _))
  release _ hc := hc.quiet (Nat.le_refl _) (Tiers.quiet_release _ _)

/-! ### What follows a step -/

/-- A thread goes on from wherever the tiers agree with the marks. -/
def Steady (front : Front) (x : StoreHandle) (me : Nat) (m : Marked Mark α) : Prop :=
  ∀ h log, Agreed front x h log → Marked.Safe (Agreed front x) me m h log

theorem agreed_enqueue {h : Heap} {log : Log Mark} (hc : Agreed front x h log) (m : Lock)
    (me : Nat) : Agreed front x (h.enqueue m me) log :=
  hc.congr (Heap.now_enqueue h m me) (Heap.tiers_enqueue h m me)

theorem Steady.look {me : Nat} {f : Heap → β} {k : β → Marked Mark α}
    (hk : ∀ b, Steady front x me (k b)) : Steady front x me (.act (Call.look f) k) :=
  fun h log hc ↦ Or.inl ⟨_, _, rfl, hk _ h log hc⟩

theorem Steady.elsewhere {me : Nat} {f : Heap → β × Tiers} {k : β → Marked Mark α}
    (hquiet : ∀ h, Tiers.Quiet front.near.cache x.store h.tiers (f h).2)
    (hk : ∀ b, Steady front x me (k b)) : Steady front x me (.act (Call.atomically f) k) :=
  fun h log hc ↦ Or.inl ⟨_, _, rfl, hk _ _ log (hc.quiet (Nat.le_refl _) (hquiet h))⟩

theorem Steady.acquire {me : Nat} {m : Lock} {k : Marked Mark α} (hk : Steady front x me k) :
    Steady front x me (.acquire m k) :=
  fun _ _ hc ↦ ⟨hc, fun _ log' hc' _ ↦
    ⟨agreed_enqueue hc' m me, fun _ ↦ hk _ log' (agreed_enqueue hc' m me)⟩⟩

theorem Steady.release {me : Nat} {m : Lock} {k : Marked Mark α} (hk : Steady front x me k) :
    Steady front x me (.release m k) :=
  fun _ log hc ↦ hk _ log (hc.congr rfl rfl)

theorem Steady.loopEnd {me r : Nat} {deadline : Option Nat} {k : Bool → Marked Mark α}
    (hk : ∀ b, Steady front x me (k b)) : Steady front x me (.loopEnd r deadline k) :=
  fun _ _ hc ↦ ⟨hc, fun h' log' hc' _ ↦ ⟨fun _ ↦ hk true h' log' hc', fun _ ↦ hk false h' log' hc'⟩⟩

/-- The local tier is closed. -/
theorem Steady.closeNear {me : Nat} {k : Answer Unit → Marked Mark α}
    (hk : ∀ a, Steady front x me (k a)) : Steady front x me (.act front.near.tier.close k) :=
  fun _ log hc ↦ Marked.Safe.of_atOnce (F := fun _ ↦ False) (Coherent.closeNear hc rfl)
    (fun a h' hc' ↦ hk a h' log hc') fun _ hfail ↦ hfail.elim

/-- A stop of a listener is nothing to the tiers. -/
theorem Steady.stop {me : Nat} (l : Nat) {k : Unit → Marked Mark α}
    (hk : ∀ a, Steady front x me (k a)) : Steady front x me (Listener.notedStop {} l k) := by
  refine .acquire (.elsewhere (fun h ↦ Tiers.quiet_setListener _ _ _) fun taken ↦ .release ?_)
  cases taken with
  | none => exact hk ()
  | some r =>
    refine .elsewhere (fun h ↦ ?_) fun _ ↦ .look fun deadline ↦ .loopEnd fun inTime ↦
      .elsewhere (fun h ↦ ?_) hk
    · exact (Tiers.quiet_setListener _ _ _).trans (Tiers.quiet_setLoop _ _ _)
    · cases inTime with
      | true => exact Tiers.quiet_setListener _ _ _
      | false => exact (Tiers.quiet_closeLoop _ _).trans (Tiers.quiet_setListener _ _ _)

theorem Steady.close {me : Nat} {k : Answer Unit → Marked Mark α}
    (hk : ∀ a, Steady front x me (k a)) : Steady front x me (closing front x k) := by
  have hclosed : Steady front x me (.release (.slot front.id)
      (.act (discard front.near.tier.close) fun _ ↦ .act x.tier.close k)) :=
    .release fun h log hc ↦ Marked.Safe.of_atOnce (F := fun _ ↦ False)
      (Call.AtOnce.discard (Coherent.closeNear hc rfl))
      (fun _ h' hc' ↦ Or.inl ⟨h', _, rfl, hk _ h' log hc'⟩) fun _ hfail ↦ hfail.elim
  refine .acquire (.look fun listener ↦ ?_)
  cases listener with
  | none => exact hclosed
  | some l => exact .stop l fun _ ↦ hclosed

/-! ### The operations that are marked -/

/-- A copy is left after a write. -/
private theorem safe_copy {me : Nat} {key v : String} {ttl : Nat} {k : Unit → Marked Mark α}
    {h : Heap} {log : Log Mark} (hafter : Expiry.after h.now ttl ≠ none)
    (hc : Coherent front.near.cache x.store (fun j ↦ True ∧ j ≠ key) h
      ((me, .wrote key ⟨v, h.now, ttl⟩) :: log))
    (hk : Steady front x me (k ())) :
    Marked.Safe (Agreed front x) me
      (.mark (fun h ↦ .wrote key ⟨v, h.now, ttl⟩) (.act ((layered front x).populate key v ttl) k))
      h log := by
  refine Marked.Safe.of_atOnce (hc.populate (w := ⟨v, h.now, ttl⟩) rfl ?_ (Or.inr hafter))
    (fun _ h' hc' ↦ hk h' _ hc') fun h' hfail ↦ hfail.1.congr rfl rfl
  rw [standing, if_pos rfl]

theorem Steady.set {me : Nat} {key v : String} {ttl : Nat} {k : Answer Unit → Marked Mark α}
    (hk : ∀ a, Steady front x me (k a)) :
    Steady front x me (notedSet (marked front x) key v ttl k) := by
  intro h log hc
  refine Marked.Safe.of_atOnce (Coherent.remoteSet hc x rfl v ttl) (fun a h' ha ↦ ?_)
    fun h' hc' ↦ hc'.congr rfl rfl
  obtain ⟨rfl, hafter, hwrote⟩ := ha
  exact safe_copy hafter (hwrote me) (hk (.ok ()))

theorem Steady.del {me : Nat} {key : String} {k : Answer Unit → Marked Mark α}
    (hk : ∀ a, Steady front x me (k a)) :
    Steady front x me (notedDel (marked front x) key k) := by
  intro h log hc
  refine Marked.Safe.of_atOnce (F := fun _ ↦ False) (Coherent.clear hc rfl) (fun _ h' hc' ↦ ?_)
    fun h' hfail ↦ hfail.elim
  refine Marked.Safe.of_atOnce (F := fun _ ↦ False) (hc'.1.remoteDel x rfl hc'.2)
    (fun a h'' ha ↦ ?_) fun h'' hfail ↦ hfail.elim
  obtain ⟨rfl, hdeleted⟩ := ha
  exact hk (.ok ()) h'' _ (hdeleted me)

/-- A fetched value is left on both tiers. -/
theorem Steady.keep {me : Nat} {key v : String} {ttl : Nat} {k : Marked Mark α}
    (hk : Steady front x me k) : Steady front x me (notedKeep (marked front x) key v ttl k) := by
  intro h log hc
  refine Marked.Safe.of_atOnce (Coherent.remoteSet hc x rfl v ttl) (fun a h' ha ↦ ?_)
    fun h' hc' ↦ hc'.congr rfl rfl
  obtain ⟨rfl, hafter, hwrote⟩ := ha
  exact safe_copy hafter (hwrote me) hk

/-- A fill, given how its fetch goes on. -/
theorem Steady.fill {me : Nat} {key : String} {ttl : Nat}
    {fetch : Marked Mark (Except String String)}
    (hfetch : ∀ g : Except String String → Marked Mark (Answer String),
      (∀ a, Steady front x me (g a)) → Steady front x me (fetch.bind g)) :
    Steady front x me (notedFill (marked front x) key ttl fetch) := by
  have hdone : ∀ a : Answer String, Steady front x me (.done a) :=
    fun _ _ _ hc ↦ hc.congr rfl rfl
  intro h log hc
  refine Marked.Safe.of_atOnce (F := fun _ ↦ False) (Coherent.lookup hc trivial rfl)
    (fun r h' hr ↦ ?_) fun h' hfail ↦ hfail.elim
  cases r with
  | some v => exact hdone _ h' log hr.1
  | none =>
    refine hfetch _ (fun fetched ↦ ?_) h' log hr.1
    cases fetched with
    | error source => exact hdone _
    | ok v => exact .keep (hdone _)

/-- A reading that fills, given how its fill goes on. What it does before it turns to the guard is a
read like any other. -/
theorem Steady.getOrSet {me : Nat} {key : String} {ttl : Nat}
    {fetch : Marked Mark (Except String String)} {k : Answer String → Marked Mark α}
    (hfill : ∀ i, Steady front x i (notedFill (marked front x) key ttl fetch))
    (hk : ∀ a, Steady front x me (k a)) :
    Steady front x me (notedGetOrSet (marked front x) key ttl fetch k) := by
  intro h log hc
  refine Marked.Safe.of_atOnce (F := fun _ ↦ False) (Coherent.localHit hc trivial rfl)
    (fun r h' hr ↦ ?_) fun h' hfail ↦ hfail.elim
  obtain ⟨hc', -, -, hnone⟩ := hr
  cases r with
  | some v => exact hk (.ok v) h' log hc'
  | none =>
    refine Marked.Safe.of_atOnce (F := fun _ ↦ False) (hc'.remoteGet x rfl) (fun a h'' ha ↦ ?_)
      fun h'' hfail ↦ hfail.elim
    obtain ⟨hc'', -, hnear, hanswered⟩ := ha
    cases a with
    | error f =>
      exact ⟨hc'', fun i h₃ log₃ hc₃ _ ↦ hfill i h₃ log₃ hc₃, fun o h₃ log₃ hc₃ _ ↦
        hk o h₃ log₃ hc₃⟩
    | ok v =>
      have hbefore : (h''.tiers.localTier front.near.cache).table.get? key = none := by
        rw [hnear]
        exact hnone rfl
      exact Marked.Safe.of_atOnce (hc''.promote me _ _ rfl hanswered hbefore)
        (fun _ h₃ hc₃ ↦ hk (.ok v) h₃ log hc₃) fun h₃ hfail ↦ hfail.1.congr rfl rfl

/-- A call that uses the hybrid tier keeps the tiers in agreement with the marks, whatever it goes
on with. -/
theorem Uses.steady {m : Marked Mark α} (hm : Uses front x m) (me : Nat) (f : α → Marked Mark β)
    (hf : ∀ a, Steady front x me (f a)) : Steady front x me (m.bind f) := by
  induction hm generalizing me β with
  | done a => exact hf a
  | crash => exact fun h log hc ↦ hc.congr rfl rfl
  | get _ ih =>
    exact fun h log hc ↦ Marked.Safe.of_atOnce (Coherent.get hc)
      (fun a h' hc' ↦ ih a me f hf h' log hc'.1) fun h' hfail ↦ hfail.1.congr rfl rfl
  | contains _ ih =>
    exact fun h log hc ↦ Marked.Safe.of_atOnce (F := fun _ ↦ False) (Coherent.contains hc)
      (fun a h' hc' ↦ ih a me f hf h' log hc') fun h' hfail ↦ hfail.elim
  | set _ ih =>
    rw [notedSet_bind]
    exact .set fun a ↦ ih a me f hf
  | del _ ih =>
    rw [notedDel_bind]
    exact .del fun a ↦ ih a me f hf
  | getOrSet _ _ ihfetch ih =>
    rw [notedGetOrSet, notedRead_bind]
    exact .getOrSet (fun i ↦ .fill (ihfetch i)) fun a ↦ ih a me f hf
  | close _ ih =>
    rw [closing, notedClose_bind (Listener.notedStop {})
      fun l k f ↦ Listener.notedStop_bind {} l k f]
    exact .close fun a ↦ ih a me f hf
  | closeNear _ ih => exact .closeNear fun a ↦ ih a me f hf
  | look _ ih => exact .look fun b ↦ ih b me f hf
  | elsewhere hquiet _ ih => exact .elsewhere hquiet fun b ↦ ih b me f hf
  | pause _ ih => exact fun h log hc ↦ ⟨hc, fun h' log' hc' _ ↦ ih me f hf h' log' hc'⟩
  | sleep _ ih => exact fun h log hc ↦ ⟨hc, fun h' log' hc' _ ↦ ih me f hf h' log' hc'⟩
  | join _ _ ihfill ih =>
    refine fun h log hc ↦ ⟨hc, fun i h' log' hc' _ ↦ ?_, fun o h' log' hc' _ ↦
      ih o me f hf h' log' hc'⟩
    have hsafe := ihfill i .done (fun a h'' log'' hc'' ↦ hc''.congr rfl rfl) h' log' hc'
    rwa [Marked.bind_done] at hsafe
  | acquire _ ih => exact .acquire (ih me f hf)
  | release _ ih => exact .release (ih me f hf)
  | loopEnd _ ih => exact .loopEnd fun b ↦ ih b me f hf

/-- Tasks use the hybrid tier and may be cancelled. -/
def usage (front : Front) (x : StoreHandle) (ρ : Type) : Play.Rules Mark ρ :=
  ⟨Uses front x, [], True⟩

theorem keep_usage (ρ : Type) : (usage front x ρ).Keep (Agreed front x) where
  kept := kept_agreed
  aborts _ _ _ _ hc := hc.congr rfl rfl
  opens hm := hm.opens
  safe hm i h log hc _ := by
    have hsteady := hm.steady i .done fun _ _ _ hc' ↦ hc'.congr rfl rfl
    rw [Marked.bind_done] at hsteady
    exact hsteady h log hc

/-- In whatever has come of an empty local tier over an empty store, the two agree with the
marks. -/
theorem agreed_of_reachable {ρ : Type} {now : Nat} {tiers : Tiers} {p : Play Mark ρ}
    (hnear : (tiers.localTier front.near.cache).table = .empty)
    (hdata : (tiers.store x.store).data = ∅) (honline : (tiers.store x.store).offline = false)
    (hp : Play.Reachable (usage front x ρ) (Play.opening now tiers []) p) :
    Agreed front x p.world.heap p.log := by
  refine (hp.sound (keep_usage ρ) (Play.sound_opening ⟨honline, fun _ key ↦ ?_, fun key ↦ ?_,
    fun key _ e he ↦ ?_⟩)).inv
  · change (tiers.localTier front.near.cache).table.get? key = none
    rw [hnear]
    rfl
  · change (tiers.store x.store).data[key]? = none
    rw [hdata]
    rfl
  · change (tiers.localTier front.near.cache).table.get? key = some e at he
    rw [hnear] at he
    cases he

theorem population_lt {s : HybridSettings} (hs : s.populationSecs < 2 ^ 55) :
    s.population < Clock.secs (2 ^ 55) := by
  unfold HybridSettings.population Clock.secs
  omega

/-- The clock has room for the deadline of a copy. -/
theorem after_population_ne_none {s : HybridSettings} {now : Nat}
    (hpopulation : s.populationSecs < 2 ^ 55) (hnow : now < Clock.secs (2 ^ 63 - 2 ^ 55)) :
    Expiry.after now s.population ≠ none :=
  Expiry.after_ne_none hnow (population_lt hpopulation)

/-- Through any steps of any tasks that use a hybrid tier over a store, both empty at first, the
local tier cannot be seen in what a read answers. A value that it answers is that of the last write,
which no removal has followed. What was written last and has not expired is answered, if the clock
has room for the deadline of a copy. Where nothing was written, or a removal came last, there is
nothing. The operations that the tasks use are those of the hybrid tier, marks aside. -/
theorem get_transparent {ρ : Type} {now : Nat} {tiers : Tiers} {p : Play Mark ρ}
    (hnear : (tiers.localTier front.near.cache).table = .empty)
    (hdata : (tiers.store x.store).data = ∅) (honline : (tiers.store x.store).offline = false)
    (hpopulation : front.settings.populationSecs < 2 ^ 55)
    (hp : Play.Reachable (usage front x ρ) (Play.opening now tiers []) p) (me : Nat)
    (key : String) :
    let answer := (((layered front x).get key).exec me p.world.heap []).rest
    ((marked front x).Links ∧ (layered front x).close.Underlies (closing front x)) ∧
      (∀ v, answer = .done (.ok v) → ∃ w, standing key p.log = some w ∧ w.value = v) ∧
      (∀ w, standing key p.log = some w → (w.ttl = 0 ∨ p.world.heap.now < w.moment + w.ttl) →
        p.world.heap.now < Clock.secs (2 ^ 63 - 2 ^ 55) → answer = .done (.ok w.value)) ∧
      (standing key p.log = none → answer = .done (.error .notFound)) := by
  intro answer
  have hc := agreed_of_reachable hnear hdata honline hp
  have hget := (Coherent.get hc : ((layered front x).get key).AtOnce me p.world.heap _ _).rest_exec
  change (∃ a, answer = .done a ∧ _) ∨ answer = .crash ∧ _ at hget
  refine ⟨⟨(marked front x).links, underlies_notedClose (Listener.underlies_notedStop {})⟩,
    fun v hv ↦ ?_, fun w hw hlive hnow ↦ ?_, fun hnone ↦ ?_⟩
  · rcases hget with ⟨a, ha, -, hanswered⟩ | ⟨hcrash, -⟩
    · rw [hv] at ha
      obtain rfl := Call.done.inj ha
      generalize standing key p.log = w? at hanswered
      cases hanswered with
      | value => exact ⟨_, rfl, rfl⟩
    · rw [hv] at hcrash
      cases hcrash
  · have hfar := hc.far key
    rw [hw] at hget hfar
    obtain ⟨e, he, -⟩ := hfar
    rcases hget with ⟨a, ha, -, hanswered⟩ | ⟨-, -, -, hoverflow⟩
    · cases hanswered with
      | value => exact ha
      | miss hexpired =>
        have hgone := hexpired w e rfl he
        rw [Expiry.expired, (Expiry.live_after_iff he).mpr hlive] at hgone
        cases hgone
    · exact absurd hoverflow (after_population_ne_none hpopulation hnow)
  · rw [hnone] at hget
    rcases hget with ⟨a, ha, -, hanswered⟩ | ⟨-, -, hsome, -⟩
    · cases hanswered with
      | miss _ => exact ha
    · exact absurd rfl hsome

/-- A task writes a key, removes it, and after a pause writes it again for two seconds; a second
later the value of the last write is read. -/
theorem get_transparent_of_rewritten :
    let front : Front := ⟨0, ⟨0, 0⟩, 1, default⟩
    let x : StoreHandle := ⟨0, 2⟩
    let cache := LocalCache.create ⟨fun _ ↦ 0, id⟩ ⟨1, .random, 1⟩
    let first : Play Mark Unit := .opening 0 ((Tiers.empty.setLocal 0 cache).setStore 0 default) []
    let code : Marked Mark Unit := notedSet (marked front x) "k" "v" 0 fun _ ↦
      notedDel (marked front x) "k" fun _ ↦ .pause <|
        notedSet (marked front x) "k" "w" (Clock.secs 2) fun _ ↦ .done ()
    let spawned := first.apply (.spawn [] code)
    let paused := spawned.apply (.run (.task 0))
    let ended := paused.apply (.run (.task 0))
    let last := ended.apply (.advance (Clock.secs 1))
    Play.Reachable (usage front x Unit) first last ∧
      standing "k" last.log = some ⟨"w", 0, Clock.secs 2⟩ ∧
      (((layered front x).get "k").exec 2 last.world.heap []).rest = .done (.ok "w") := by
  intro front x cache first code spawned paused ended last
  have hcode : Uses front x code := .set fun _ ↦ .del fun _ ↦ .pause (.set fun _ ↦ .done ())
  have hspawned : Play.Reachable (usage front x Unit) first spawned := .move _ hcode .start
  have hpaused : Play.Reachable (usage front x Unit) first paused :=
    .move _ ⟨0, by decide⟩ hspawned
  have hended : Play.Reachable (usage front x Unit) first ended :=
    .move _ ⟨1, by decide⟩ hpaused
  have hlast : Play.Reachable (usage front x Unit) first last := .move _ trivial hended
  have hstanding : standing "k" last.log = some ⟨"w", 0, Clock.secs 2⟩ := by decide
  have hnow : last.world.heap.now = Clock.secs 1 := by decide
  refine ⟨hlast, hstanding, ?_⟩
  refine (get_transparent rfl rfl rfl (by decide) hlast 2 "k").2.2.1 _ hstanding (Or.inr ?_) ?_
  · rw [hnow]
    decide
  · rw [hnow]
    decide

end Hybrid

end TwoTier
