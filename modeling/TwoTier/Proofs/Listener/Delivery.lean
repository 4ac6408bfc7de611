import TwoTier.Proofs.Local.Table
import TwoTier.Proofs.Store.Subscriptions
import TwoTier.Engine.Heap

/-!
# What subscriptions deliver

The history of a store and of those who listen to it (`Notice.Event`) says what was sent to a
subscription: the payloads published on its channel while it was attached (`Notice.sent`). What its
receiver has taken (`Notice.taken`) accounts for a first part of these, one by one and in order, but
for those whose loss it was told of (`Notice.Covers`).

`Notice.Fed` says how one subscription stands to what was sent to it and what was taken from it,
with one lemma for each thing that happens to a subscription, and `Notice.Subscribed` says it of all
subscriptions to a store.
-/

set_option autoImplicit false
set_option relaxedAutoImplicit false

namespace TwoTier

namespace Notice

/-- What a local tier and a store show: the entries, the counters and the sketch of the one, and the
data and the counters of the other. -/
structure Caches where
  /-- The entry of each key in the local tier. -/
  entry : String → Option Entry
  /-- The counters of the local tier. -/
  counters : Counters
  /-- How often keys were asked for. -/
  sketch : Sketch
  /-- The data of the store. -/
  data : Dict String Stored
  /-- Reads of the store that found a text. -/
  hits : Nat
  /-- Reads of the store that found no live value. -/
  misses : Nat

/-- What the local tier `n` and the store `s` show. -/
def Caches.of (n s : Nat) (t : Tiers) : Caches where
  entry := (t.localTier n).table.get?
  counters := (t.localTier n).counters
  sketch := (t.localTier n).sketch
  data := (t.store s).data
  hits := (t.store s).hits
  misses := (t.store s).misses

/-- What happens to a store, to those who listen to it, and to the tiers. -/
inductive Event where
  /-- A payload was published on a channel. -/
  | published (channel payload : String)
  /-- The subscriptions to a channel were dropped. -/
  | disconnected (channel : String)
  /-- A receive loop was made for a new subscription. -/
  | subscribed (i : Nat) (channel : String)
  /-- The loop of a subscription was told to end. -/
  | told (i : Nat)
  /-- A start waits for the loop before to end. -/
  | replacing
  /-- A start could not subscribe. -/
  | refused
  /-- A stop has waited long enough, and has ended a subscription. -/
  | closed (source : Source) (i : Nat)
  /-- A loop has taken what its subscription received. -/
  | took (i : Nat) (d : Delivery)
  /-- A loop has ended, and its subscription with it. -/
  | left (i : Nat)
  /-- Somebody else has used the tiers, which show this now. -/
  | touched (c : Caches)

/-! ### What is read off a history -/

/-- The channel that a subscription to the store `s` is attached to. -/
def attachedTo (s i : Nat) : List Event → Option String
  | [] => none
  | .subscribed j channel :: es => if j = i then some channel else attachedTo s i es
  | .disconnected channel :: es => (attachedTo s i es).filter (· ≠ channel)
  | .closed source j :: es => if source = .store s ∧ j = i then none else attachedTo s i es
  | .left j :: es => if j = i then none else attachedTo s i es
  | _ :: es => attachedTo s i es

/-- What was published on the channel of a subscription while it was attached, the oldest first. -/
def sent (s i : Nat) : List Event → List String
  | [] => []
  | .published channel payload :: es =>
    if attachedTo s i es = some channel then sent s i es ++ [payload] else sent s i es
  | _ :: es => sent s i es

/-- What a receive loop has taken from a subscription, the latest first. -/
def taken (i : Nat) : List Event → List Delivery
  | [] => []
  | .took j d :: es => if j = i then d :: taken i es else taken i es
  | _ :: es => taken i es

/-- How many payloads deliveries account for. -/
def reach : List Delivery → Nat
  | [] => 0
  | .payload _ :: ds => reach ds + 1
  | .lagged k :: ds => reach ds + k
  | _ :: ds => reach ds

/-- Deliveries, the latest first, account for some payloads, the oldest first: each of these was
delivered, or is one of those whose loss was reported there. -/
inductive Covers : List Delivery → List String → Prop
  | nil : Covers [] []
  | payload {ds : List Delivery} {xs : List String} (p : String) (h : Covers ds xs) :
      Covers (.payload p :: ds) (xs ++ [p])
  | lagged {ds : List Delivery} {xs : List String} (lost : List String) (h : Covers ds xs) :
      Covers (.lagged lost.length :: ds) (xs ++ lost)

/-- What a receiver gets next that has got as far as `n` in what was sent to it: it keeps no more
than `Subscriber.capacity` payloads, and is told first how many older ones it has lost. -/
def nextOf (sent : List String) (n : Nat) : Delivery :=
  if Subscriber.capacity < sent.length - n then .lagged (sent.length - n - Subscriber.capacity)
  else (sent[n]?).elim .pending .payload

/-- Nobody has told the loop of a subscription to the store `s` to end, or has ended it. -/
def Untold (s i : Nat) (es : List Event) : Prop :=
  .told i ∉ es ∧ .closed (.store s) i ∉ es

theorem Untold.of_cons {s i : Nat} {e : Event} {es : List Event} (h : Untold s i (e :: es)) :
    Untold s i es :=
  ⟨fun hmem ↦ h.1 (List.mem_cons_of_mem _ hmem), fun hmem ↦ h.2 (List.mem_cons_of_mem _ hmem)⟩

theorem Covers.length_eq {ds : List Delivery} {xs : List String} (h : Covers ds xs) :
    xs.length = reach ds := by
  induction h with
  | nil => rfl
  | payload p _ ih => rw [List.length_append, ih]; rfl
  | lagged lost _ ih => rw [List.length_append, ih]; rfl

/-! ### One subscription -/

/-- A subscription reports a loss, or delivers what it holds, or has nothing. -/
theorem receive_cases (u : Subscriber) :
    (0 < u.missed ∧ u.receive = (.lagged u.missed, { u with missed := 0 })) ∨
      (u.missed = 0 ∧ ∃ p rest, u.unread = p :: rest ∧
        u.receive = (.payload p, { u with unread := rest })) ∨
      u.missed = 0 ∧ u.unread = [] ∧ u.receive = (if u.attached then .pending else .ended, u) := by
  unfold Subscriber.receive
  by_cases hmissed : 0 < u.missed
  · exact Or.inl ⟨hmissed, if_pos hmissed⟩
  · have hzero := Nat.eq_zero_of_not_pos hmissed
    rw [if_neg hmissed]
    cases hunread : u.unread with
    | cons p rest => exact Or.inr (Or.inl ⟨hzero, p, rest, rfl, rfl⟩)
    | nil => exact Or.inr (Or.inr ⟨hzero, rfl, rfl⟩)

/-- How a subscription stands to what was sent to it and what was taken from it. -/
structure Fed (u : Subscriber) (channel : Option String) (sent : List String)
    (ds : List Delivery) : Prop where
  channel_eq : channel = if u.attached then some u.channel else none
  split : ∃ read lost, sent = read ++ (lost ++ u.unread) ∧ Covers ds read ∧ lost.length = u.missed
  length_le : u.unread.length ≤ Subscriber.capacity
  full : 0 < u.missed → u.unread.length = Subscriber.capacity

namespace Fed

variable {u : Subscriber} {channel : Option String} {xs : List String} {ds : List Delivery}

theorem deliver (h : Fed u channel xs ds) (p : String) :
    Fed (u.deliver p) channel (xs ++ [p]) ds := by
  obtain ⟨read, lost, hsplit, hread, hlost⟩ := h.split
  have hcapacity : 0 < Subscriber.capacity := by decide
  have hlength : (u.unread ++ [p]).length = u.unread.length + 1 := List.length_append
  unfold Subscriber.deliver
  dsimp only
  split_ifs with hover
  · -- the oldest payload is lost, and comes to stand behind those that are lost already
    have hfull : u.unread.length = Subscriber.capacity := by
      have := h.length_le
      omega
    cases hunread : u.unread with
    | nil =>
      rw [hunread] at hfull
      exact absurd hfull (Nat.ne_of_lt hcapacity)
    | cons oldest rest =>
      rw [hunread] at hsplit hfull
      refine ⟨h.channel_eq, ⟨read, lost ++ [oldest], ?_, hread, ?_⟩, ?_, fun _ ↦ ?_⟩
      · rw [hsplit]
        simp
      · rw [List.length_append, hlost]
        rfl
      · simpa using Nat.le_of_eq hfull
      · simpa using hfull
  · refine ⟨h.channel_eq, ⟨read, lost, ?_, hread, hlost⟩, Nat.le_of_not_lt hover, fun hmissed ↦ ?_⟩
    · rw [hsplit]
      simp
    · have := h.full hmissed
      omega

theorem detach (h : Fed u channel xs ds) : Fed { u with attached := false } none xs ds :=
  ⟨rfl, h.split, h.length_le, h.full⟩

/-- Where no loss is to be reported. -/
theorem split_of_caughtUp (h : Fed u channel xs ds) (hmissed : u.missed = 0) :
    ∃ read, xs = read ++ u.unread ∧ Covers ds read := by
  obtain ⟨read, lost, hsplit, hread, hlost⟩ := h.split
  have hnone : lost = [] := List.eq_nil_of_length_eq_zero (hlost.trans hmissed)
  rw [hnone, List.nil_append] at hsplit
  exact ⟨read, hsplit, hread⟩

/-- What a subscription receives is what comes next of what was sent. -/
theorem receive_eq (h : Fed u channel xs ds) (hended : u.receive.1 ≠ .ended) :
    u.receive.1 = nextOf xs (reach ds) := by
  have hcapacity := h.length_le
  unfold nextOf
  rcases receive_cases u with
    ⟨hmissed, heq⟩ | ⟨hmissed, p, rest, hunread, heq⟩ | ⟨hmissed, hnil, heq⟩
  · obtain ⟨read, lost, hsplit, hread, hlost⟩ := h.split
    have hfull := h.full hmissed
    have hlength : xs.length - reach ds = u.missed + Subscriber.capacity := by
      rw [hsplit, ← hread.length_eq, List.length_append, List.length_append, hlost, hfull]
      omega
    rw [heq, hlength, if_pos (by omega), Nat.add_sub_cancel]
  · obtain ⟨read, hsplit, hread⟩ := h.split_of_caughtUp hmissed
    have hlength : xs.length - reach ds = u.unread.length := by
      rw [hsplit, ← hread.length_eq, List.length_append, Nat.add_sub_cancel_left]
    rw [heq, hlength, if_neg (Nat.not_lt.mpr hcapacity), hsplit, ← hread.length_eq, hunread]
    simp
  · obtain ⟨read, hsplit, hread⟩ := h.split_of_caughtUp hmissed
    rw [hnil, List.append_nil] at hsplit
    have hlength : xs.length = reach ds := by
      rw [hsplit, hread.length_eq]
    have hattached : u.attached = true := by
      by_contra hdetached
      rw [heq, if_neg hdetached] at hended
      exact hended rfl
    rw [heq, if_pos hattached, ← hlength, Nat.sub_self, if_neg (Nat.not_lt_zero _)]
    simp

/-- What was received is taken. -/
theorem receive (h : Fed u channel xs ds) (hpending : u.receive.1 ≠ .pending)
    (hended : u.receive.1 ≠ .ended) : Fed u.receive.2 channel xs (u.receive.1 :: ds) := by
  rcases receive_cases u with
    ⟨hmissed, heq⟩ | ⟨hmissed, p, rest, hunread, heq⟩ | ⟨hmissed, hnil, heq⟩
  · obtain ⟨read, lost, hsplit, hread, hlost⟩ := h.split
    rw [heq]
    refine ⟨h.channel_eq, ⟨read ++ lost, [], ?_, ?_, rfl⟩, h.length_le,
      fun hpos ↦ absurd hpos (Nat.lt_irrefl 0)⟩
    · rw [hsplit, List.append_assoc, List.nil_append]
    · rw [← hlost]
      exact .lagged lost hread
  · obtain ⟨read, hsplit, hread⟩ := h.split_of_caughtUp hmissed
    have hle := h.length_le
    rw [hunread] at hsplit hle
    rw [heq]
    refine ⟨h.channel_eq, ⟨read ++ [p], [], ?_, .payload p hread, hmissed.symm⟩,
      Nat.le_of_succ_le hle, fun hpos ↦ absurd hmissed (Nat.ne_of_gt hpos)⟩
    rw [hsplit, List.append_assoc, List.nil_append, List.singleton_append]
  · rw [heq] at hpending hended
    dsimp only at hpending hended
    split_ifs at hpending hended
    · exact absurd rfl hpending
    · exact absurd rfl hended

/-- Where there is nothing to receive, all that was sent has been accounted for. -/
theorem covers (h : Fed u channel xs ds) (hd : u.receive.1 = .pending ∨ u.receive.1 = .ended) :
    Covers ds xs := by
  rcases receive_cases u with
    ⟨hmissed, heq⟩ | ⟨hmissed, p, rest, hunread, heq⟩ | ⟨hmissed, hnil, heq⟩
  · rw [heq] at hd
    rcases hd with hd | hd <;> cases hd
  · rw [heq] at hd
    rcases hd with hd | hd <;> cases hd
  · obtain ⟨read, hsplit, hread⟩ := h.split_of_caughtUp hmissed
    rw [hnil, List.append_nil] at hsplit
    rw [hsplit]
    exact hread

end Fed

/-! ### All subscriptions to a store -/

/-- What holds of a subscription that there is no more. -/
structure Gone (s i : Nat) (es : List Event) : Prop where
  detached : attachedTo s i es = none
  read : ∃ read rest, sent s i es = read ++ rest ∧ Covers (taken i es) read
  covers : Untold s i es → Covers (taken i es) (sent s i es)

/-- Nothing was sent to a subscription that has not been made, or that is none of a listener. -/
structure Strange (s i : Nat) (es : List Event) : Prop where
  detached : attachedTo s i es = none
  sent_eq : sent s i es = []
  taken_eq : taken i es = []

/-- How the subscriptions to a store from number `first` on stand to its history. -/
structure Subscribed (s first : Nat) (x : Store) (es : List Event) : Prop where
  issued : x.Issued
  first_le : first ≤ x.nextSubscriber
  distinct : ∀ u ∈ x.subscribers, ∀ v ∈ x.subscribers, first ≤ u.id → u.id = v.id → u = v
  fed : ∀ u ∈ x.subscribers, first ≤ u.id →
    Fed u (attachedTo s u.id es) (sent s u.id es) (taken u.id es)
  gone : ∀ i, first ≤ i → (∀ u ∈ x.subscribers, u.id ≠ i) → Gone s i es
  strange : ∀ i, i < first ∨ x.nextSubscriber ≤ i → Strange s i es
  law : ∀ newer older i d, es = newer ++ .took i d :: older →
    d = nextOf (sent s i older) (reach (taken i older))

/-- An event does not make a subscription, and nothing is taken from it. -/
def Event.Spares (i : Nat) : Event → Prop
  | .subscribed j _ => j ≠ i
  | .took j _ => j ≠ i
  | _ => True

section Spared

variable {s i : Nat} {e : Event} {es : List Event}

theorem taken_of_spares (he : e.Spares i) : taken i (e :: es) = taken i es := by
  cases e with
  | took j d => exact if_neg he
  | _ => rfl

/-- Nothing is sent to a subscription that is detached, and it stays so. -/
theorem detached_of_spares (he : e.Spares i) (h : attachedTo s i es = none) :
    attachedTo s i (e :: es) = none ∧ sent s i (e :: es) = sent s i es := by
  cases e with
  | published channel payload =>
    refine ⟨h, if_neg ?_⟩
    rw [h]
    exact (Option.some_ne_none channel).symm
  | disconnected channel =>
    refine ⟨?_, rfl⟩
    change (attachedTo s i es).filter _ = none
    rw [h]
    rfl
  | subscribed j channel => exact ⟨(if_neg he).trans h, rfl⟩
  | closed source j =>
    refine ⟨?_, rfl⟩
    change (if _ then none else attachedTo s i es) = none
    rw [h, ite_self]
  | left j =>
    refine ⟨?_, rfl⟩
    change (if _ then none else attachedTo s i es) = none
    rw [h, ite_self]
  | _ => exact ⟨h, rfl⟩

theorem Gone.of_spares (h : Gone s i es) (he : e.Spares i) : Gone s i (e :: es) := by
  obtain ⟨hdetached, hsent⟩ := detached_of_spares (e := e) he h.detached
  have htaken : taken i (e :: es) = taken i es := taken_of_spares he
  refine ⟨hdetached, ?_, fun huntold ↦ ?_⟩
  · rw [hsent, htaken]
    exact h.read
  · rw [hsent, htaken]
    exact h.covers huntold.of_cons

theorem Strange.of_spares (h : Strange s i es) (he : e.Spares i) : Strange s i (e :: es) := by
  obtain ⟨hdetached, hsent⟩ := detached_of_spares (e := e) he h.detached
  exact ⟨hdetached, hsent.trans h.sent_eq, (taken_of_spares he).trans h.taken_eq⟩

end Spared

namespace Subscribed

variable {s first : Nat} {x x' : Store} {e : Event} {es : List Event}

/-- Of what was sent to a subscription, a first part has been accounted for. -/
theorem read (h : Subscribed s first x es) (i : Nat) :
    ∃ read rest, sent s i es = read ++ rest ∧ Covers (taken i es) read := by
  by_cases hstrange : i < first
  · obtain ⟨-, hsent, htaken⟩ := h.strange i (Or.inl hstrange)
    rw [hsent, htaken]
    exact ⟨[], [], rfl, .nil⟩
  · by_cases hpresent : ∃ u ∈ x.subscribers, u.id = i
    · obtain ⟨u, hu, rfl⟩ := hpresent
      obtain ⟨read, lost, hsplit, hread, -⟩ := (h.fed u hu (Nat.le_of_not_lt hstrange)).split
      exact ⟨read, _, hsplit, hread⟩
    · exact (h.gone i (Nat.le_of_not_lt hstrange) fun u hu hid ↦ hpresent ⟨u, hu, hid⟩).read

theorem law_cons (h : Subscribed s first x es)
    (he : ∀ i d, e = .took i d → d = nextOf (sent s i es) (reach (taken i es))) :
    ∀ newer older i d, e :: es = newer ++ .took i d :: older →
      d = nextOf (sent s i older) (reach (taken i older)) := by
  intro newer older i d heq
  cases newer with
  | nil =>
    obtain ⟨rfl, rfl⟩ := List.cons.inj heq
    exact he i d rfl
  | cons e' newer =>
    obtain ⟨-, rfl⟩ := List.cons.inj heq
    exact h.law newer older i d rfl

/-- Something happens to each subscription by itself. -/
theorem map (h : Subscribed s first x es) {f : Subscriber → Subscriber}
    (hmap : x'.subscribers = x.subscribers.map f) (hnext : x'.nextSubscriber = x.nextSubscriber)
    (hid : ∀ u, (f u).id = u.id)
    (hfed : ∀ u ∈ x.subscribers, first ≤ u.id →
      Fed u (attachedTo s u.id es) (sent s u.id es) (taken u.id es) →
      Fed (f u) (attachedTo s u.id (e :: es)) (sent s u.id (e :: es)) (taken u.id (e :: es)))
    (hspares : ∀ i, (i < first ∨ ∀ u ∈ x.subscribers, u.id ≠ i) → e.Spares i)
    (hlaw : ∀ i d, e = .took i d → d = nextOf (sent s i es) (reach (taken i es))) :
    Subscribed s first x' (e :: es) where
  issued u' hu' := by
    rw [hmap] at hu'
    obtain ⟨u, hu, rfl⟩ := List.mem_map.mp hu'
    rw [hid, hnext]
    exact h.issued u hu
  first_le := hnext ▸ h.first_le
  distinct u' hu' v' hv' hfirst heq := by
    rw [hmap] at hu' hv'
    obtain ⟨u, hu, rfl⟩ := List.mem_map.mp hu'
    obtain ⟨v, hv, rfl⟩ := List.mem_map.mp hv'
    rw [hid] at hfirst
    rw [hid, hid] at heq
    rw [h.distinct u hu v hv hfirst heq]
  fed u' hu' hfirst := by
    rw [hmap] at hu'
    obtain ⟨u, hu, rfl⟩ := List.mem_map.mp hu'
    rw [hid] at hfirst ⊢
    exact hfed u hu hfirst (h.fed u hu hfirst)
  gone i hi habsent := by
    have hbefore : ∀ u ∈ x.subscribers, u.id ≠ i := by
      intro u hu
      rw [← hid u]
      refine habsent (f u) ?_
      rw [hmap]
      exact List.mem_map_of_mem hu
    exact (h.gone i hi hbefore).of_spares (hspares i (Or.inr hbefore))
  strange i hi := by
    rw [hnext] at hi
    refine (h.strange i hi).of_spares (hspares i (hi.imp id fun hle u hu hid ↦ ?_))
    have := h.issued u hu
    omega
  law := h.law_cons hlaw

/-- What happens beside the subscriptions. -/
theorem beside (h : Subscribed s first x es) (hsame : x'.subscribers = x.subscribers)
    (hnext : x'.nextSubscriber = x.nextSubscriber)
    (he : ∀ i, attachedTo s i (e :: es) = attachedTo s i es ∧ sent s i (e :: es) = sent s i es ∧
      e.Spares i) : Subscribed s first x' (e :: es) := by
  refine h.map (f := id) (hsame.trans (List.map_id _).symm) hnext (fun _ ↦ rfl)
    (fun u _ _ hfed ↦ ?_) (fun i _ ↦ (he i).2.2) fun i d htook ↦ ?_
  · rw [(he u.id).1, (he u.id).2.1, taken_of_spares (he u.id).2.2]
    exact hfed
  · have hspares := (he i).2.2
    rw [htook] at hspares
    exact absurd rfl hspares

theorem congr (h : Subscribed s first x es) (hsame : x'.subscribers = x.subscribers)
    (hnext : x'.nextSubscriber = x.nextSubscriber) : Subscribed s first x' es where
  issued u hu := by
    rw [hnext]
    exact h.issued u (hsame ▸ hu)
  first_le := hnext ▸ h.first_le
  distinct u hu v hv := h.distinct u (hsame ▸ hu) v (hsame ▸ hv)
  fed u hu := h.fed u (hsame ▸ hu)
  gone i hi habsent := h.gone i hi fun u hu ↦ habsent u (hsame ▸ hu)
  strange i hi := h.strange i (hnext ▸ hi)
  law := h.law

/-- A payload is published. -/
theorem publish (h : Subscribed s first x es) (channel payload : String) {a : Unit}
    (hok : (x.publish channel payload).1 = .ok a) :
    Subscribed s first (x.publish channel payload).2 (.published channel payload :: es) := by
  unfold Store.publish Store.whenOnline at hok ⊢
  split_ifs at hok ⊢
  refine h.map rfl rfl (fun u ↦ ?_) (fun u _ hfirst hfed ↦ ?_) (fun _ _ ↦ trivial)
    fun i d hne ↦ by cases hne
  · split_ifs
    · exact (Store.id_deliver payload u).1
    · rfl
  · have hattached : (u.attached = true ∧ u.channel = channel) ↔
        attachedTo s u.id es = some channel := by
      rw [hfed.channel_eq]
      split_ifs with ha <;> simp [ha]
    change Fed (if _ then _ else _) (attachedTo s u.id es) (if _ then _ else _) (taken u.id es)
    by_cases hchannel : attachedTo s u.id es = some channel
    · rw [if_pos (hattached.mpr hchannel), if_pos hchannel]
      exact hfed.deliver payload
    · rw [if_neg fun hboth ↦ hchannel (hattached.mp hboth), if_neg hchannel]
      exact hfed

/-- The subscriptions to a channel are dropped. -/
theorem disconnect (h : Subscribed s first x es) (channel : String) :
    Subscribed s first (x.disconnect channel) (.disconnected channel :: es) := by
  refine h.map rfl rfl (fun u ↦ ?_) (fun u _ hfirst hfed ↦ ?_) (fun _ _ ↦ trivial)
    fun i d hne ↦ by cases hne
  · split_ifs <;> rfl
  · change Fed (if _ then _ else _) ((attachedTo s u.id es).filter _) (sent s u.id es)
      (taken u.id es)
    have hchannel := hfed.channel_eq
    split_ifs with hdropped
    · rw [hchannel]
      split_ifs
      · rw [Option.filter_some, if_neg (by simp [hdropped])]
        exact hfed.detach
      · exact hfed.detach
    · refine ⟨?_, hfed.split, hfed.length_le, hfed.full⟩
      rw [hchannel]
      split_ifs
      · rw [Option.filter_some, if_pos (by simpa using hdropped)]
      · rfl

/-- A new subscription is made. -/
theorem subscribe (h : Subscribed s first x es) {channel : String} {i : Nat}
    (hok : (x.subscribe channel).1 = .ok i) :
    Subscribed s first (x.subscribe channel).2 (.subscribed i channel :: es) := by
  unfold Store.subscribe Store.whenOnline at hok ⊢
  split_ifs at hok ⊢
  obtain rfl : x.nextSubscriber = i := Outcome.ok.inj hok
  have hold : ∀ u ∈ x.subscribers, u.id ≠ x.nextSubscriber :=
    fun u hu ↦ Nat.ne_of_lt (h.issued u hu)
  have hkept : ∀ i, i ≠ x.nextSubscriber →
      attachedTo s i (.subscribed x.nextSubscriber channel :: es) = attachedTo s i es :=
    fun i hi ↦ if_neg hi.symm
  refine ⟨fun u hu ↦ ?_, Nat.le_succ_of_le h.first_le, fun u hu v hv hfirst heq ↦ ?_,
    fun u hu hfirst ↦ ?_, fun i hi habsent ↦ ?_, fun i hi ↦ ?_,
    h.law_cons fun _ _ hne ↦ by cases hne⟩
  · rcases List.mem_append.mp hu with hu | hu
    · exact Nat.lt_succ_of_lt (h.issued u hu)
    · rw [List.mem_singleton.mp hu]
      exact Nat.lt_succ_self _
  · rcases List.mem_append.mp hu with hu | hu <;> rcases List.mem_append.mp hv with hv | hv
    · exact h.distinct u hu v hv hfirst heq
    · rw [List.mem_singleton.mp hv] at heq
      exact absurd heq (hold u hu)
    · rw [List.mem_singleton.mp hu] at heq
      exact absurd heq.symm (hold v hv)
    · rw [List.mem_singleton.mp hu, List.mem_singleton.mp hv]
  · rcases List.mem_append.mp hu with hu | hu
    · rw [hkept u.id (hold u hu)]
      exact h.fed u hu hfirst
    · obtain ⟨-, hsent, htaken⟩ := h.strange x.nextSubscriber (Or.inr (Nat.le_refl _))
      rw [List.mem_singleton.mp hu]
      refine ⟨if_pos rfl, ⟨[], [], hsent, ?_, rfl⟩, Nat.zero_le _, fun hpos ↦ absurd hpos ?_⟩
      · change Covers (taken _ es) []
        rw [htaken]
        exact .nil
      · exact Nat.lt_irrefl 0
  · refine (h.gone i hi fun u hu ↦ habsent u (List.mem_append_left _ hu)).of_spares ?_
    exact habsent _ (List.mem_append_right _ List.mem_cons_self)
  · have hne : x.nextSubscriber ≠ i := by
      have := h.first_le
      rcases hi with hi | hi
      · omega
      · exact Nat.ne_of_lt hi
    exact (h.strange i (hi.imp id Nat.le_of_succ_le)).of_spares hne

/-- A subscription ends: a stop ends it, or its loop, which has accounted for all that was sent
unless it was told to end. -/
theorem unsubscribe (h : Subscribed s first x es) {i : Nat}
    (he : e = .left i ∧ (first ≤ i → Untold s i es → Covers (taken i es) (sent s i es)) ∨
      e = .closed (.store s) i) : Subscribed s first (x.unsubscribe i) (e :: es) := by
  have hspares : ∀ j, e.Spares j := by
    rcases he with ⟨rfl, -⟩ | rfl <;> exact fun _ ↦ trivial
  have hsent : ∀ j, sent s j (e :: es) = sent s j es := by
    rcases he with ⟨rfl, -⟩ | rfl <;> exact fun _ ↦ rfl
  have hends : attachedTo s i (e :: es) = none := by
    rcases he with ⟨rfl, -⟩ | rfl
    · exact if_pos rfl
    · exact if_pos ⟨rfl, rfl⟩
  have hkept : ∀ j, j ≠ i → attachedTo s j (e :: es) = attachedTo s j es := by
    intro j hj
    rcases he with ⟨rfl, -⟩ | rfl
    · exact if_neg hj.symm
    · exact if_neg fun hboth ↦ hj hboth.2.symm
  have hcovers : first ≤ i → Untold s i (e :: es) → Covers (taken i es) (sent s i es) := by
    intro hfirst huntold
    rcases he with ⟨rfl, hcovers⟩ | rfl
    · exact hcovers hfirst huntold.of_cons
    · exact absurd List.mem_cons_self huntold.2
  have hmem : ∀ u, u ∈ (x.unsubscribe i).subscribers ↔ u ∈ x.subscribers ∧ u.id ≠ i := by
    intro u
    refine List.mem_filter.trans (and_congr_right fun _ ↦ ?_)
    exact decide_eq_true_iff
  refine ⟨fun u hu ↦ h.issued u ((hmem u).mp hu).1, h.first_le, fun u hu v hv ↦ ?_,
    fun u hu hfirst ↦ ?_, fun j hj habsent ↦ ?_, fun j hj ↦ (h.strange j hj).of_spares (hspares j),
    h.law_cons fun j d hne ↦ ?_⟩
  · exact h.distinct u ((hmem u).mp hu).1 v ((hmem v).mp hv).1
  · obtain ⟨hu, hne⟩ := (hmem u).mp hu
    rw [hkept u.id hne, hsent, taken_of_spares (hspares u.id)]
    exact h.fed u hu hfirst
  · by_cases hji : j = i
    · rw [hji] at hj ⊢
      refine ⟨hends, ?_, fun huntold ↦ ?_⟩
      · rw [hsent, taken_of_spares (hspares i)]
        exact h.read i
      · rw [hsent, taken_of_spares (hspares i)]
        exact hcovers hj huntold
    · refine (h.gone j hj fun u hu hid ↦ ?_).of_spares (hspares j)
      exact habsent u ((hmem u).mpr ⟨hu, fun heq ↦ hji (hid.symm.trans heq)⟩) hid
  · have hspared := hspares j
    rw [hne] at hspared
    exact absurd rfl hspared

/-- A subscription that is found by its number. -/
theorem receive_fst (h : Subscribed s first x es) {u : Subscriber} (hu : u ∈ x.subscribers)
    (hfirst : first ≤ u.id) : (x.receive u.id).1 = u.receive.1 := by
  unfold Store.receive Subscribers.receive
  cases hfound : x.subscribers.find? fun v ↦ v.id = u.id with
  | none =>
    have hnone := List.find?_eq_none.mp hfound u hu
    simp at hnone
  | some v =>
    have hid := List.find?_some hfound
    rw [h.distinct u hu v (List.mem_of_find?_eq_some hfound) hfirst (of_decide_eq_true hid).symm]

/-- A store of whose subscription nothing will come any more is left as it is. -/
theorem receive_snd_of_ended (h : Subscribed s first x es) {i : Nat} (hi : first ≤ i)
    (hd : (x.receive i).1 = .ended) : (x.receive i).2 = x := by
  cases hfound : x.subscribers.find? fun v ↦ v.id = i with
  | none =>
    unfold Store.receive Subscribers.receive
    rw [hfound]
  | some u =>
    have hu := List.mem_of_find?_eq_some hfound
    have hid := List.find?_some hfound
    obtain rfl : u.id = i := of_decide_eq_true hid
    rw [h.receive_fst hu hi] at hd
    have hsame : u.receive.2 = u := by
      rcases receive_cases u with ⟨-, heq⟩ | ⟨-, p, rest, -, heq⟩ | ⟨-, -, heq⟩ <;> rw [heq] at hd ⊢
      · cases hd
      · cases hd
    have hmap : (x.subscribers.map fun v ↦ if v.id = u.id then u else v) = x.subscribers := by
      refine (List.map_congr_left fun v hv ↦ ?_).trans (List.map_id _)
      split_ifs with hvu
      · exact h.distinct u hu v hv hi hvu.symm
      · rfl
    unfold Store.receive Subscribers.receive
    rw [hfound]
    dsimp only
    rw [hsame, hmap]

/-- A loop takes what its subscription has received. -/
theorem receive (h : Subscribed s first x es) {i : Nat} (hi : first ≤ i)
    (hpending : (x.receive i).1 ≠ .pending) (hended : (x.receive i).1 ≠ .ended) :
    Subscribed s first (x.receive i).2 (.took i (x.receive i).1 :: es) := by
  cases hfound : x.subscribers.find? fun v ↦ v.id = i with
  | none =>
    unfold Store.receive Subscribers.receive at hended
    rw [hfound] at hended
    exact absurd rfl hended
  | some u =>
    have hu := List.mem_of_find?_eq_some hfound
    have hid := List.find?_some hfound
    obtain rfl : u.id = i := of_decide_eq_true hid
    have hfst := h.receive_fst hu hi
    have hfed := h.fed u hu hi
    rw [hfst] at hpending hended ⊢
    have hmap : (x.receive u.id).2.subscribers =
        x.subscribers.map fun v ↦ if v.id = u.id then u.receive.2 else v := by
      unfold Store.receive Subscribers.receive
      rw [hfound]
    refine h.map hmap rfl (fun v ↦ ?_) (fun v hv hfirst hfedv ↦ ?_) (fun j hj heq ↦ ?_)
      fun j d htook ↦ ?_
    · split_ifs with hv
      · exact (Store.id_receive u).1.trans hv.symm
      · rfl
    · change Fed _ (attachedTo s v.id es) (sent s v.id es) (if _ then _ else _)
      by_cases hvu : v.id = u.id
      · rw [if_pos hvu, if_pos hvu.symm, hvu]
        exact hfed.receive hpending hended
      · rw [if_neg hvu, if_neg (Ne.symm hvu)]
        exact hfedv
    · rcases hj with hj | hj
      · rw [← heq] at hj
        exact absurd hj (Nat.not_lt.mpr hi)
      · exact hj u hu heq
    · obtain ⟨rfl, rfl⟩ := Event.took.inj htook
      exact hfed.receive_eq hended

/-- A subscription whose receiver finds nothing more has accounted for all that was sent to it,
unless somebody has told its loop to end. -/
theorem covers (h : Subscribed s first x es) {i : Nat} (hi : first ≤ i)
    (hd : (x.receive i).1 = .pending ∨ (x.receive i).1 = .ended) (huntold : Untold s i es) :
    Covers (taken i es) (sent s i es) := by
  by_cases hpresent : ∃ u ∈ x.subscribers, u.id = i
  · obtain ⟨u, hu, rfl⟩ := hpresent
    rw [h.receive_fst hu hi] at hd
    exact (h.fed u hu hi).covers hd
  · exact (h.gone i hi fun u hu hid ↦ hpresent ⟨u, hu, hid⟩).covers huntold

end Subscribed

end Notice

end TwoTier
