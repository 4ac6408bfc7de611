import TwoTier.Proofs.Engine.Play
import TwoTier.Proofs.Server.Conduct

/-!
# Tasks that use a connected store

Tasks do any operations of a connected store, one after another, and whatever else they like by the
way, as long as they do not count accesses of the store themselves and turn to its fills only
through it (`Remote.Serves`). All of them keep to the rules of `Remote.Event.Follows`, whatever the
peer makes of their commands (`Remote.Serves.conducts`).
-/

set_option autoImplicit false
set_option relaxedAutoImplicit false

namespace TwoTier

namespace Remote

/-- The accesses counted for the store are the same. -/
def Spares (s : ServerHandle) (h h' : Heap) : Prop :=
  (h'.tiers.server s.server).counters.hits = (h.tiers.server s.server).counters.hits ∧
    (h'.tiers.server s.server).counters.misses = (h.tiers.server s.server).counters.misses

/-- The calls that use a connected store. The fetches of calls that fill are such calls themselves.
-/
inductive Serves (s : ServerHandle) : ∀ {α : Type}, Marked Event α → Prop
  | done {α : Type} (a : α) : Serves s (.done a)
  | crash {α : Type} : Serves s (.crash : Marked Event α)
  | get {α : Type} (key : String) {k : Answer String → Marked Event α} (hk : ∀ a, Serves s (k a)) :
      Serves s (markedGet s key k)
  | blpop {α : Type} (timeout : Nat) (keys : List String)
      {k : Answer (List String) → Marked Event α} (hk : ∀ a, Serves s (k a)) :
      Serves s (markedPop s timeout keys k)
  | order {α β : Type} (o : Order β) {k : Answer β → Marked Event α} (hk : ∀ a, Serves s (k a)) :
      Serves s (markedOrder s o k)
  | getOrSet {α : Type} (key : String) (ttl : Nat) {fetch : Marked Event (Except String String)}
      {k : Answer String → Marked Event α} (hfetch : Serves s fetch) (hk : ∀ a, Serves s (k a)) :
      Serves s (markedGetOrSet s key ttl fetch k)
  | subscribe {α : Type} (channel : String) {k : Answer Nat → Marked Event α}
      (hk : ∀ a, Serves s (k a)) : Serves s (markedSubscribe s channel k)
  | stats {α : Type} {k : Snapshot → Marked Event α} (hk : ∀ x, Serves s (k x)) :
      Serves s (markedStats s k)
  | aside {α β : Type} {c : Call β} {k : β → Marked Event α} (hopens : ∀ b, c ≠ .done b)
      (hunbegun : c.Unbegun)
      (hspares : ∀ me h, c.AtOnce me h (fun _ h' ↦ Spares s h h') (Spares s h))
      (hk : ∀ b, Serves s (k b)) : Serves s (.act c k)
  | pause {α : Type} {k : Marked Event α} (hk : Serves s k) : Serves s (.pause k)
  | sleep {α : Type} (wake : Option Nat) {k : Marked Event α} (hk : Serves s k) :
      Serves s (.sleep wake k)
  | pop {α : Type} (store : Nat) (keys : List String) (deadline seen : Option Nat)
      {k : Answer (Option (String × String)) → Marked Event α} (hk : ∀ a, Serves s (k a)) :
      Serves s (.pop store keys deadline seen k)
  | join {α : Type} {g : Nat} (hg : g ≠ s.guard) (key : String)
      {fill : Marked Event (Answer String)} {k : Answer String → Marked Event α}
      (hfill : Serves s fill) (hk : ∀ o, Serves s (k o)) : Serves s (.join g key fill k)
  | acquire {α : Type} (lock : Lock) {k : Marked Event α} (hk : Serves s k) :
      Serves s (.acquire lock k)
  | release {α : Type} (lock : Lock) {k : Marked Event α} (hk : Serves s k) :
      Serves s (.release lock k)
  | loopEnd {α : Type} (loop : Nat) (deadline : Option Nat) {k : Bool → Marked Event α}
      (hk : ∀ b, Serves s (k b)) : Serves s (.loopEnd loop deadline k)

variable {s : ServerHandle} {α β : Type}

/-! ### Operations keep to the rules -/

/-- Whether an operation has no part in how a fill begins, fetches and ends. -/
def Event.Routine : Event → Prop
  | .began _ => False
  | .fetched _ _ => False
  | .settled _ _ => False
  | _ => True

/-- A property of records that operations may go on from: their events keep it, and no fetch has
ended in them. -/
structure Inner (P : List Event → Prop) : Prop where
  cons : ∀ {e own}, e.Routine → P own → P (e :: own)
  unfetched : ∀ {own}, P own → ∀ key r, .fetched key r ∉ own

section Operations

variable {P : List Event → Prop} {fin : List Event → Conclusion α → Prop} {own : List Event}

theorem Inner.trip (hP : Inner P) {command : List String} {limit : Option Nat} {own' : List Event}
    (ht : Trip command limit own own') (hown : P own) : P own' := by
  cases ht with
  | refused => exact hP.cons trivial hown
  | arrived reaction => exact hP.cons trivial (hP.cons trivial hown)

/-- Where no fetch has ended, any command may set out that is the next thing to be done. -/
theorem Inner.attempted (hP : Inner P) (hown : P own) (hfree : Free own) (command : List String)
    (limit : Option Nat) : (Event.attempted command limit).Follows own :=
  Or.inl ⟨hfree, hP.unfetched hown⟩

/-- What an operation sends neither reads a text nor waits for an element, and no answer of its is a
miss. -/
structure Dispatch.Sound (d : Dispatch β) : Prop where
  ordinary : Ordinary d.command
  answer_ne : ∀ {o}, o ≠ .error .notFound → d.answer o ≠ .error .notFound

theorem Dispatch.sound_single {limit : ServerOptions → Nat} {command : List String}
    {read : Reply → Option β} (hcommand : Ordinary command) :
    (Dispatch.single limit command read).Sound :=
  ⟨hcommand, answerOf_ne_notFound read⟩

theorem ordinary_cons {word : String} {rest : List String} (hget : word ≠ "GET")
    (hpop : word ≠ "BLPOP") : Ordinary (word :: rest) :=
  ⟨fun h ↦ hget (Option.some.inj h), fun h ↦ hpop (Option.some.inj h)⟩

theorem Order.sound (o : Order β) {d : Dispatch β} (hd : o.dispatch = .inr d) : d.Sound := by
  cases o with
  | contains key =>
    cases hd
    refine ⟨ordinary_cons (by decide) (by decide), fun {o} ho heq ↦ ?_⟩
    cases hanswer : answerOf Reply.int? o with
    | ok n =>
      simp only [hanswer, Except.map] at heq
      cases heq
    | error f =>
      simp only [hanswer, Except.map] at heq
      exact answerOf_ne_notFound _ ho (hanswer.trans (congrArg Except.error (Except.error.inj heq)))
  | rpush key values =>
    simp only [Order.dispatch] at hd
    split at hd <;> cases hd
    exact Dispatch.sound_single (ordinary_cons (by decide) (by decide))
  | sadd key members =>
    simp only [Order.dispatch] at hd
    split at hd <;> cases hd
    exact Dispatch.sound_single (ordinary_cons (by decide) (by decide))
  | publishMany channel payloads =>
    simp only [Order.dispatch] at hd
    split at hd <;> cases hd
    exact ⟨ordinary_cons (by decide) (by decide), answerOf_ne_notFound _⟩
  | _ =>
    cases hd
    exact Dispatch.sound_single (ordinary_cons (by decide) (by decide))

theorem fault?_ne_notFound {a : Answer β} (ha : a ≠ .error .notFound) :
    fault? a ≠ some .notFound := by
  cases a with
  | ok b => exact fun heq ↦ by cases heq
  | error f => exact fun heq ↦ ha (congrArg Except.error (Option.some.inj heq))

/-- One command, and the answer to it. -/
theorem conducts_dispatch {d : Dispatch β} (hd : d.Sound) {k : Answer β → Marked Event α}
    (hattempt : ∀ limit : Option Nat, (Event.attempted d.command limit).Follows own)
    (hk : ∀ a o failure limit own', Trip d.command limit own own' →
      Conducts s fin (k a) (.answered d.command failure :: .ended d.command o :: own')) :
    Conducts s fin (.act s.options fun opts ↦
      markedTransmit s (some (d.limit opts)) d.command d.send fun r ↦
        .mark (fun _ ↦ .answered d.command (fault? (d.answer r))) (k (d.answer r))) own := by
  refine .look fun opts ↦ conducts_transmit (hattempt _) fun o own' ho ht ↦ ?_
  refine .mark (fun _ ↦ trivial) (fun _ ↦ ?_) fun _ ↦ hk _ o _ _ own' ht
  exact ⟨fault?_ne_notFound (hd.answer_ne ho), hd.ordinary, Or.inr ⟨o, own', rfl⟩⟩

theorem conducts_order (hP : Inner P) (o : Order β) {k : Answer β → Marked Event α} (hown : P own)
    (hfree : Free own) (hk : ∀ a own', P own' → Free own' → Conducts s fin (k a) own') :
    Conducts s fin (markedOrder s o k) own := by
  unfold markedOrder
  split
  · exact hk _ _ hown hfree
  · rename_i d hd
    refine conducts_dispatch (o.sound hd) (fun limit ↦ hP.attempted hown hfree d.command limit)
      fun a o failure limit own' ht ↦ hk a _ ?_ trivial
    exact hP.cons trivial (hP.cons trivial (hP.trip ht hown))

/-- A text is read, and what is made of it is classified. -/
theorem conducts_read (hP : Inner P) (key : String) {k : Answer String → Marked Event α}
    (hown : P own) (hfree : Free own)
    (hk : ∀ a o own', P own' → Classified Reply.text? o a →
      Conducts s fin (k a) (.ended ["GET", key] o :: own')) :
    Conducts s fin (markedRead s key k) own := by
  refine .look fun opts ↦ conducts_transmit (hP.attempted hown hfree _ _) fun o own' ho ht ↦ ?_
  have hread : Classified Reply.text? o _ := classified_orMiss rfl ho
  have hthen := hk _ o own' (hP.trip ht hown) hread
  unfold markedText
  cases hanswer : answerOf (Reply.orNothing Reply.text?) o with
  | error f =>
    rw [hanswer] at hthen
    exact hthen
  | ok r =>
    rw [hanswer] at hthen
    cases r with
    | some v => exact .atomically fun _ ↦ hthen
    | none => exact .atomically fun _ ↦ hthen

theorem conducts_get (hP : Inner P) (key : String) {k : Answer String → Marked Event α}
    (hown : P own) (hfree : Free own)
    (hk : ∀ a own', P own' → Free own' → Conducts s fin (k a) own') :
    Conducts s fin (markedGet s key k) own := by
  refine conducts_read hP key hown hfree fun a o own' hown' hread ↦ ?_
  refine .mark (fun _ ↦ trivial) (fun _ ↦ ⟨o, own', rfl, hread⟩) fun _ ↦ hk a _ ?_ trivial
  exact hP.cons trivial (hP.cons trivial hown')

theorem conducts_pop (hP : Inner P) (hcrash : ∀ own, P own → fin own .crash) (timeout : Nat)
    (keys : List String) {k : Answer (List String) → Marked Event α} (hown : P own)
    (hfree : Free own) (hk : ∀ a own', P own' → Free own' → Conducts s fin (k a) own') :
    Conducts s fin (markedPop s timeout keys k) own := by
  refine .look fun opts ↦ ?_
  by_cases hlong : timeout ≠ 0 ∧ Clock.spanLimit ≤ timeout + opts.readLimit
  · rw [if_pos hlong]
    exact .crash hfree.still (hcrash own hown)
  · rw [if_neg hlong]
    refine conducts_transmit (hP.attempted hown hfree _ _) fun o own' ho ht ↦ ?_
    refine .mark (fun _ ↦ trivial)
      (fun _ ↦ ⟨timeout, o, own', rfl, classified_orMiss rfl ho⟩) fun _ ↦ hk _ _ ?_ trivial
    exact hP.cons trivial (hP.cons trivial (hP.trip ht hown))

theorem conducts_subscribe (hP : Inner P) (channel : String) {k : Answer Nat → Marked Event α}
    (hown : P own) (hfree : Free own)
    (hk : ∀ a own', P own' → Free own' → Conducts s fin (k a) own') :
    Conducts s fin (markedSubscribe s channel k) own := by
  have hanswered : ∀ (failure : Option Fault) (a : Answer Nat), failure ≠ some .notFound →
      Conducts s fin (.mark (fun _ ↦ .answered ["SUBSCRIBE", channel] failure) (k a)) own :=
    fun failure a hfailure ↦ .mark (fun _ ↦ trivial)
      (fun _ ↦ ⟨hfailure, ordinary_cons (by decide) (by decide), Or.inl hfree⟩)
      fun _ ↦ hk a _ (hP.cons trivial hown) trivial
  refine .look fun closed ↦ ?_
  cases closed with
  | true => exact hanswered _ _ fun heq ↦ by cases heq
  | false =>
    exact .pause hfree.still <| .atomically fun i ↦ hanswered _ _ fun heq ↦ by cases heq

theorem conducts_stats (hP : Inner P) {k : Snapshot → Marked Event α} (hown : P own)
    (hfree : Free own) (hk : ∀ x own', P own' → Free own' → Conducts s fin (k x) own') :
    Conducts s fin (markedStats s k) own := by
  refine .look fun measured ↦ .look fun opts ↦
    conducts_transmit (hP.attempted hown hfree _ _) fun o own' ho ht ↦ ?_
  refine .mark (fun _ ↦ trivial) (fun _ ↦ ?_) fun _ ↦ .look fun x ↦ hk x _ ?_ trivial
  · exact ⟨fun heq ↦ (by cases heq), ordinary_cons (by decide) (by decide), Or.inr ⟨o, own', rfl⟩⟩
  · exact hP.cons trivial (hP.cons trivial (hP.trip ht hown))

end Operations

/-! ### Fills keep to the rules -/

/-- No fetch has ended. -/
theorem inner_unfetched : Inner fun own ↦ ∀ key r, .fetched key r ∉ own where
  cons := by
    intro e own hroutine hnone key r hmem
    rcases List.mem_cons.mp hmem with rfl | hmem
    · exact hroutine
    · exact hnone key r hmem
  unfetched hown := hown

/-- A fill has begun, and its fetch has not ended. -/
def Fetching (key : String) (own : List Event) : Prop :=
  ∃ since, own = since ++ [.began key] ∧ ∀ key' r, .fetched key' r ∉ since

theorem inner_fetching (key : String) : Inner (Fetching key) where
  cons := by
    rintro e own hroutine ⟨since, rfl, hnone⟩
    refine ⟨e :: since, rfl, fun key' r hmem ↦ ?_⟩
    rcases List.mem_cons.mp hmem with rfl | hmem
    · exact hroutine
    · exact hnone key' r hmem
  unfetched := by
    rintro own ⟨since, rfl, hnone⟩ key' r hmem
    rcases List.mem_append.mp hmem with hmem | hmem
    · exact hnone key' r hmem
    · cases List.mem_singleton.mp hmem

/-- A fill whose fetch has ended sends at most one command, and ends with what was fetched. -/
theorem conducts_keep {key : String} {ttl : Nat} {r : Except String String} {own : List Event}
    (hown : Fetching key own) (hfree : Free own) :
    Conducts s fillEnd (markedKeep s key ttl r) own := by
  refine .mark (fun _ ↦ trivial) (fun _ ↦ ⟨hfree, hown⟩) fun _ ↦ ?_
  cases r with
  | error source =>
    refine .mark (fun _ ↦ trivial) (fun _ ↦ ⟨[], _, own, rfl, rfl, rfl⟩) fun _ ↦ .done trivial ?_
    exact Or.inl ⟨key, _, _, rfl, rfl⟩
  | ok v =>
    have hsound : (Dispatch.single ServerOptions.writeLimit (ServerHandle.setCommand key v ttl)
        ServerHandle.anything).Sound := Order.sound (.set key v ttl) rfl
    refine conducts_dispatch hsound (fun limit ↦ Or.inr ⟨key, v, ttl, own, rfl, rfl⟩)
      fun a o failure limit own' ht ↦ .mark (fun _ ↦ by trivial) (fun _ ↦ ?_) fun _ ↦
        .done (by trivial) (Or.inl ⟨key, _, _, rfl, rfl⟩)
    cases ht with
    | refused =>
      exact ⟨_, .ok v, own, rfl, rfl, ttl, limit, o, failure, [_], .refused, rfl⟩
    | arrived reaction =>
      exact ⟨_, .ok v, own, rfl, rfl, ttl, limit, o, failure, [_, _], .arrived reaction, rfl⟩

/-- A call that uses the store keeps to the rules, where what follows it does. -/
theorem Serves.conducts {m : Marked Event β} (hm : Serves s m) {P : List Event → Prop}
    (hP : Inner P) {α : Type} {fin : List Event → Conclusion α → Prop} {k : β → Marked Event α}
    (hcrash : ∀ own, P own → fin own .crash)
    (hk : ∀ b own, P own → Free own → Conducts s fin (k b) own) {own : List Event} (hown : P own)
    (hfree : Free own) : Conducts s fin (m.bind k) own := by
  induction hm generalizing P α fin own with
  | done a => exact hk a own hown hfree
  | crash => exact .crash hfree.still (hcrash own hown)
  | get key _ ih =>
    rw [bind_markedGet]
    exact conducts_get hP key hown hfree fun a own' hown' hfree' ↦
      ih a hP hcrash hk hown' hfree'
  | blpop timeout keys _ ih =>
    rw [bind_markedPop]
    exact conducts_pop hP hcrash timeout keys hown hfree fun a own' hown' hfree' ↦
      ih a hP hcrash hk hown' hfree'
  | order o _ ih =>
    rw [bind_markedOrder]
    exact conducts_order hP o hown hfree fun a own' hown' hfree' ↦
      ih a hP hcrash hk hown' hfree'
  | @getOrSet _ key ttl fetch k' _ _ ihfetch ih =>
    rw [bind_markedGetOrSet]
    refine conducts_read hP key hown hfree fun a o own' hown' hread ↦ ?_
    have hsought : P (.sought key a :: .ended ["GET", key] o :: own') :=
      hP.cons trivial (hP.cons trivial hown')
    refine .mark (fun _ ↦ trivial) (fun _ ↦ ⟨o, own', rfl, hread⟩) fun _ ↦ ?_
    by_cases hmiss : a = .error .notFound
    · subst hmiss
      refine .turn (fun flight next ↦ ⟨_, rfl⟩) ?_ fun o' flight next ↦ ?_
      · exact ihfetch (inner_fetching key)
          (fun own h ↦ Or.inr ⟨rfl, (inner_fetching key).unfetched h⟩)
          (fun r own h hfree' ↦ conducts_keep h hfree')
          ⟨[], rfl, fun _ _ h ↦ absurd h List.not_mem_nil⟩
          trivial
      · exact ih o' hP hcrash hk (hP.cons trivial (hP.cons trivial hsought)) trivial
    · have hheld : Conducts s fin (.mark (fun _ ↦ .held key a) ((k' a).bind k))
          (.sought key a :: .ended ["GET", key] o :: own') :=
        .mark (fun _ ↦ trivial) (fun _ ↦ ⟨_, rfl, hmiss⟩) fun _ ↦
          ih a hP hcrash hk (hP.cons trivial hsought) trivial
      cases a with
      | ok v => exact hheld
      | error f => cases f <;> first | exact absurd rfl hmiss | exact hheld
  | subscribe channel _ ih =>
    rw [bind_markedSubscribe]
    exact conducts_subscribe hP channel hown hfree fun a own' hown' hfree' ↦
      ih a hP hcrash hk hown' hfree'
  | stats _ ih =>
    rw [bind_markedStats]
    exact conducts_stats hP hown hfree fun x own' hown' hfree' ↦
      ih x hP hcrash hk hown' hfree'
  | aside _ _ _ _ ih =>
    exact .act (fun _ ↦ .crash hfree.still (hcrash own hown)) fun b ↦ ih b hP hcrash hk hown hfree
  | pause _ ih => exact .pause hfree.still (ih hP hcrash hk hown hfree)
  | sleep wake _ ih => exact .sleep hfree.still wake (ih hP hcrash hk hown hfree)
  | pop store keys deadline seen _ ih =>
    exact .pop hfree.still store keys deadline seen fun a ↦ ih a hP hcrash hk hown hfree
  | @join _ g hg key fill _ _ _ ihfill ih =>
    refine .join hfree.still hg key ?_ fun o ↦ ih o hP hcrash hk hown hfree
    have hfill : Conducts s anyEnd (fill.bind .done) [] := ihfill inner_unfetched
      (fun _ _ ↦ trivial) (fun b own' _ hfree' ↦ .done hfree'.still trivial)
      (fun _ _ h ↦ absurd h List.not_mem_nil) trivial
    rwa [Marked.bind_done] at hfill
  | acquire lock _ ih => exact .acquire hfree.still lock (ih hP hcrash hk hown hfree)
  | release lock _ ih => exact .release lock (ih hP hcrash hk hown hfree)
  | loopEnd loop deadline _ ih =>
    exact .loopEnd hfree.still loop deadline fun b ↦ ih b hP hcrash hk hown hfree

/-- A task that uses the store keeps to the rules. -/
theorem Serves.conducts_task {m : Marked Event α} (hm : Serves s m) : Conducts s anyEnd m [] := by
  have hend : Conducts s anyEnd (m.bind .done) [] := hm.conducts inner_unfetched
    (fun _ _ ↦ trivial) (fun b own _ hfree ↦ .done hfree.still trivial)
    (fun _ _ h ↦ absurd h List.not_mem_nil) trivial
  rwa [Marked.bind_done] at hend

/-! ### What they are as calls -/

theorem unbegun_act {c : Call β} {k : β → Marked Event α} (hc : c.Unbegun)
    (hk : ∀ b, (k b).call.Unbegun) : (Marked.act c k).call.Unbegun :=
  hc.bind hk

theorem unbegun_transmit {limit : Option Nat} {command : List String}
    {send : Peer → Reaction × Peer} {k : Answer Reply → Marked Event α}
    (hk : ∀ o, (k o).call.Unbegun) : (markedTransmit s limit command send k).call.Unbegun := by
  refine unbegun_act (fun _ ↦ trivial) fun closed ↦ ?_
  cases closed with
  | true => exact hk _
  | false =>
    refine unbegun_act (fun _ ↦ trivial) fun deadline ↦
      unbegun_act (fun _ ↦ trivial) fun reaction ↦ ?_
    have hexpire : ∀ span, (markedExpire s command span k).call.Unbegun := fun span ↦
      unbegun_act (fun _ ↦ trivial) fun _ ↦ hk _
    change (markedReaction s limit deadline command k reaction).call.Unbegun
    unfold markedReaction
    split_ifs
    · exact hexpire 0
    · cases reaction with
      | reply r => exact hk _
      | close => exact hk _
      | hang => exact hexpire _

theorem unbegun_order (o : Order β) {k : Answer β → Marked Event α} (hk : ∀ a, (k a).call.Unbegun) :
    (markedOrder s o k).call.Unbegun := by
  unfold markedOrder
  split
  · exact hk _
  · exact unbegun_act (fun _ ↦ trivial) fun opts ↦ unbegun_transmit fun r ↦ hk _

theorem unbegun_read (key : String) {k : Answer String → Marked Event α}
    (hk : ∀ a, (k a).call.Unbegun) : (markedRead s key k).call.Unbegun := by
  refine unbegun_act (fun _ ↦ trivial) fun opts ↦ unbegun_transmit fun o ↦ ?_
  unfold markedText
  split
  · exact unbegun_act (fun _ ↦ trivial) fun _ ↦ hk _
  · exact unbegun_act (fun _ ↦ trivial) fun _ ↦ hk _
  · exact hk _

theorem unbegun_fill (key : String) (ttl : Nat) {fetch : Marked Event (Except String String)}
    (hfetch : fetch.call.Unbegun) : (markedFill s key ttl fetch).call.Unbegun := by
  change (fetch.bind _).call.Unbegun
  rw [Marked.call_bind]
  refine hfetch.bind fun r ↦ ?_
  cases r with
  | ok v => exact unbegun_order (.set key v ttl) fun _ ↦ trivial
  | error source => trivial

/-- Tasks that use the store begin without a wait for a fill. -/
theorem Serves.unbegun {m : Marked Event α} (hm : Serves s m) : m.call.Unbegun := by
  induction hm with
  | done a => trivial
  | crash => trivial
  | get key _ ih => exact unbegun_read key ih
  | blpop timeout keys _ ih =>
    refine unbegun_act (fun _ ↦ trivial) fun opts ↦ ?_
    by_cases hlong : timeout ≠ 0 ∧ Clock.spanLimit ≤ timeout + opts.readLimit
    · rw [if_pos hlong]
      trivial
    · rw [if_neg hlong]
      exact unbegun_transmit fun o ↦ ih _
  | order o _ ih => exact unbegun_order o ih
  | getOrSet key ttl _ _ ihfetch ih =>
    refine unbegun_read key fun a ↦ ?_
    cases a with
    | ok v => exact ih _
    | error f =>
      cases f with
      | notFound => exact ⟨unbegun_fill key ttl ihfetch, ih⟩
      | _ => exact ih _
  | subscribe channel _ ih =>
    refine unbegun_act (fun _ ↦ trivial) fun closed ↦ ?_
    cases closed with
    | true => exact ih _
    | false => exact unbegun_act (fun _ ↦ trivial) fun i ↦ ih _
  | stats _ ih =>
    exact unbegun_act (fun _ ↦ trivial) fun measured ↦ unbegun_act (fun _ ↦ trivial) fun opts ↦
      unbegun_transmit fun o ↦ unbegun_act (fun _ ↦ trivial) ih
  | aside _ hunbegun _ _ ih => exact unbegun_act hunbegun ih
  | pause _ ih => exact ih
  | sleep _ _ ih => exact ih
  | pop _ _ _ _ _ ih => exact ih
  | join _ _ _ _ ihfill ih => exact ⟨ihfill, ih⟩
  | acquire _ _ ih => exact ih
  | release _ _ ih => exact ih
  | loopEnd _ _ _ ih => exact ih

/-- Tasks that use the store begin with something that takes its turn. -/
theorem Serves.opens {m : Marked Event α} (hm : Serves s m) : Play.Opens m := by
  induction hm with
  | order o _ ih =>
    unfold markedOrder
    split
    · exact ih _
    · trivial
  | @aside _ _ c k hopens _ _ _ _ =>
    cases c with
    | done b => exact absurd rfl (hopens b)
    | _ => trivial
  | _ => trivial

end Remote

end TwoTier
