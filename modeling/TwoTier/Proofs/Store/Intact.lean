import TwoTier.Listener
import TwoTier.Proofs.Engine.Course
import TwoTier.Proofs.Store.Refusal
import TwoTier.Tier.Store

/-!
# Operations that fail leave the store intact

An `Operation` is one of the operations that a store offers, on its data or on its channels, with
its arguments. Some of them wait: for an element of a list, or for the outcome of a fill. In between
others may leave any heap (`Call.Course`).

The main result, `StoreHandle.Operation.intact`, says what an operation has done to the store that
ends with an error or cannot go on: at each of its steps nothing, except that its first step counts
a miss where it is a read that finds no live value. A fill that such an operation starts is a call
of its own. Where it fails, it has done to the store what its fetch did.
-/

set_option autoImplicit false
set_option relaxedAutoImplicit false

namespace TwoTier

namespace Call

/-- A step leaves a store as it was, but for `n` more misses. -/
def Step.Spares (s n : Nat) (step : Step) : Prop :=
  Store.Spared step.before.now n (step.before.tiers.store s) (step.after.tiers.store s)

/-- A call has ended, or waits and will end with what it waits for. It ends well where it gets an
element of the store `s`. -/
inductive Waiting (s : Nat) {α : Type} : Call (Answer α) → Prop
  /-- It has ended. -/
  | ended {c : Call (Answer α)} (hc : c.Ended) : Waiting s c
  /-- It waits for an element of a list. -/
  | pop {keys : List String} {deadline seen : Option Nat}
      {k : Answer (Option (String × String)) → Call (Answer α)}
      (hsome : ∀ x, (k (.ok (some x))).Succeeded) (hended : ∀ a, (k a).Ended) :
      Waiting s (pop s keys deadline seen k)
  /-- It waits for the outcome of a fill. -/
  | await {i : Nat} {k : Answer String → Call (Answer α)} (hended : ∀ o, (k o).Ended) :
      Waiting s (await i k)

/-- What the step of a call leads to that began with the heap `h`: the call waits or has ended,
where it has not ended well it has left the store as it was but for `n` more misses, and the fills
that it has started are some of `F`. -/
structure Leads (s n : Nat) (F : Fill → Prop) {α : Type} (h : Heap) (p : Progress (Answer α)) :
    Prop where
  waiting : Waiting s p.rest
  spares : ¬ p.rest.Succeeded → (⟨h, p.heap, p.fills⟩ : Step).Spares s n
  fills : ∀ f ∈ p.fills, F f

section Waiting

variable {α : Type} {s n : Nat} {F : Fill → Prop} {me : Nat} {h : Heap}

/-- A step that ends where it began leaves everything as it was. -/
theorem spares_self (s : Nat) (h : Heap) (fills : List Fill) : (⟨h, h, fills⟩ : Step).Spares s 0 :=
  (Store.Alike.refl _ _).spared

theorem Leads.of_ended {c : Call (Answer α)} (hc : c.Ended) {h' : Heap}
    (hspares : ¬ c.Succeeded → (⟨h, h', []⟩ : Step).Spares s n) :
    Leads s n F h (c.exec me h' []) := by
  rw [hc.exec]
  exact ⟨.ended hc, hspares, fun _ hf ↦ absurd hf List.not_mem_nil⟩

theorem leads_done {a : Answer α} {h' : Heap}
    (hspares : ¬ (done a).Succeeded → (⟨h, h', []⟩ : Step).Spares s n) :
    Leads s n F h ⟨h', [], done a⟩ :=
  ⟨.ended trivial, hspares, fun _ hf ↦ absurd hf List.not_mem_nil⟩

theorem leads_crash {h' : Heap} (hspares : (⟨h, h', []⟩ : Step).Spares s n) :
    Leads s n F h (⟨h', [], crash⟩ : Progress (Answer α)) :=
  ⟨.ended trivial, fun _ ↦ hspares, fun _ hf ↦ absurd hf List.not_mem_nil⟩

/-- A step of a wait for an element: where it takes none, nobody can tell. -/
theorem leads_pop {keys : List String} {deadline seen : Option Nat}
    {k : Answer (Option (String × String)) → Call (Answer α)}
    (hsome : ∀ x, (k (.ok (some x))).Succeeded) (hended : ∀ a, (k a).Ended) (h : Heap) :
    Leads s 0 F h ((pop s keys deadline seen k).exec me h []) := by
  have hstay (seen' : Option Nat) {h' : Heap} (hspares : (⟨h, h', []⟩ : Step).Spares s 0) :
      Leads s 0 F h ⟨h', [], pop s keys deadline seen' k⟩ :=
    ⟨.pop hsome hended, fun _ ↦ hspares, fun _ hf ↦ absurd hf List.not_mem_nil⟩
  have htried : (∀ x, (Store.tryPop h.now keys (h.tiers.store s)).1 ≠ .ok (some x)) →
      (⟨h, { h with tiers := h.tiers.setStore s (Store.tryPop h.now keys (h.tiers.store s)).2 },
        []⟩ : Step).Spares s 0 := fun hnone ↦ by
    unfold Step.Spares
    rw [Tiers.store_setStore, if_pos rfl]
    exact (Store.alike_tryPop h.now keys hnone).spared
  simp only [Call.exec]
  by_cases hseen : seen = some (h.tiers.store s).pushes
  · rw [if_pos hseen]
    split_ifs
    · exact .of_ended (hended _) fun _ ↦ spares_self s h []
    · exact hstay seen (spares_self s h [])
  · rw [if_neg hseen]
    cases houtcome : (Store.tryPop h.now keys (h.tiers.store s)).1 with
    | ok x =>
      cases x with
      | some x => exact .of_ended (hended _) fun hnot ↦ absurd (hsome x) hnot
      | none =>
        have hspares := htried (by simp [houtcome])
        split_ifs
        · exact .of_ended (hended _) fun _ ↦ hspares
        · exact hstay _ hspares
    | fault f => exact .of_ended (hended _) fun _ ↦ htried (by simp [houtcome])
    | overflow =>
      have hspares := htried (by simp [houtcome])
      split_ifs
      · exact .of_ended (hended _) fun _ ↦ hspares
      · exact hstay _ hspares

/-- A step of a call that waits: where it does not end well, nobody can tell. -/
theorem Waiting.leads {c c' : Call (Answer α)} (hc : Waiting s c) (hresumes : Resumes c c')
    (h : Heap) : Leads s 0 F h (c'.exec me h []) := by
  cases hc with
  | ended hc =>
    rw [hc.resumes hresumes]
    exact .of_ended hc fun _ ↦ spares_self s h []
  | pop hsome hended =>
    cases hresumes
    exact leads_pop hsome hended h
  | await hended =>
    cases hresumes with
    | same =>
      exact ⟨.await hended, fun _ ↦ spares_self s h [], fun _ hf ↦ absurd hf List.not_mem_nil⟩
    | awaited i k o => exact .of_ended (hended o) fun _ ↦ spares_self s h []

/-- An operation on the store ends in one step. -/
theorem leads_onStore {op : Nat → Store → Outcome α × Store}
    (hop : (op h.now (h.tiers.store s)).1.Failed →
      Store.Spared h.now n (h.tiers.store s) (op h.now (h.tiers.store s)).2) :
    Leads s n F h ((onStore s op).exec me h []) := by
  have hspares (hfailed : (op h.now (h.tiers.store s)).1.Failed) :
      (⟨h, { h with tiers := h.tiers.setStore s (op h.now (h.tiers.store s)).2 },
        []⟩ : Step).Spares s n := by
    unfold Step.Spares
    rw [Tiers.store_setStore, if_pos rfl]
    exact hop hfailed
  simp only [onStore, Call.exec]
  cases houtcome : (op h.now (h.tiers.store s)).1 with
  | ok a => exact leads_done fun hnot ↦ absurd trivial hnot
  | fault f =>
    rw [houtcome] at hspares
    exact leads_done fun _ ↦ hspares trivial
  | overflow =>
    rw [houtcome] at hspares
    exact leads_crash (hspares trivial)

end Waiting

end Call

namespace StoreHandle

/-- An operation that a store offers, with its arguments, by what it answers. -/
inductive Operation : Type → Type 1 where
  /-- To read the text of a key. -/
  | get (key : String) : Operation String
  /-- To be told whether a key holds a value. -/
  | contains (key : String) : Operation Bool
  /-- To put a text under a key, to expire after a span. -/
  | set (key value : String) (ttl : Nat) : Operation Unit
  /-- To remove a key. -/
  | del (key : String) : Operation Unit
  /-- To count the number of a key up by one. -/
  | incr (key : String) : Operation Int
  /-- To append values to the list of a key. -/
  | rpush (key : String) (values : List String) : Operation Unit
  /-- To take the head of the first non-empty list among some keys, and to wait for one. -/
  | blpop (timeout : Nat) (keys : List String) : Operation (List String)
  /-- To keep the elements of a list between two bounds. -/
  | ltrim (key : String) (start stop : Int) : Operation Unit
  /-- To run a script on keys and arguments. -/
  | eval (script : String) (keys args : List String) : Operation ScriptValue
  /-- To add members to the set of a key. -/
  | sadd (key : String) (members : List String) : Operation Unit
  /-- To be told whether a text is a member of the set of a key. -/
  | sismember (key member : String) : Operation Bool
  /-- To read the text of a key, and to fetch and store it where there is none. -/
  | getOrSet (key : String) (ttl : Nat) (fetch : Fetch) : Operation String
  /-- To measure the store. -/
  | stats : Operation Snapshot
  /-- To close the handle. -/
  | close : Operation Unit
  /-- To publish a payload on a channel. -/
  | publish (channel payload : String) : Operation Unit
  /-- To publish payloads on a channel, one after the other. -/
  | publishMany (channel : String) (payloads : List String) : Operation Unit
  /-- To subscribe to a channel. -/
  | subscribe (channel : String) : Operation Nat

namespace Operation

variable {α : Type} (x : StoreHandle)

/-- The call of an operation. -/
def call : {α : Type} → Operation α → Call (Answer α)
  | _, get key => x.tier.get key
  | _, contains key => x.tier.contains key
  | _, set key value ttl => x.tier.set key value ttl
  | _, del key => x.tier.del key
  | _, incr key => x.tier.incr key
  | _, rpush key values => x.tier.rpush key values
  | _, blpop timeout keys => x.tier.blpop timeout keys
  | _, ltrim key start stop => x.tier.ltrim key start stop
  | _, eval script keys args => x.tier.eval script keys args
  | _, sadd key members => x.tier.sadd key members
  | _, sismember key member => x.tier.sismember key member
  | _, getOrSet key ttl fetch => x.tier.getOrSet key ttl fetch
  | _, stats => x.tier.stats.bind fun s ↦ .done (.ok s)
  | _, close => x.tier.close
  | _, publish channel payload => Call.onStore x.store fun _ ↦ Store.publish channel payload
  | _, publishMany channel payloads =>
    Call.onStore x.store fun _ ↦ Store.publishMany channel payloads
  | _, subscribe channel => Listener.subscribe (.store x.store) channel

/-- The misses that an operation counts where it fails that begins with a heap: one, where it begins
by reading a key and finds no live value. -/
def missed (h : Heap) : {α : Type} → Operation α → Nat
  | _, get key => if (h.tiers.store x.store).Misses h.now key then 1 else 0
  | _, getOrSet key _ _ => if (h.tiers.store x.store).Misses h.now key then 1 else 0
  | _, _ => 0

/-- What an operation fetches where it finds no value: under which key, to expire after which span,
and how. -/
def fetched? : {α : Type} → Operation α → Option (String × Nat × Fetch)
  | _, getOrSet key ttl fetch => some (key, ttl, fetch)
  | _, _ => none

/-- The fills that an operation may start. -/
def Fills (o : Operation α) (f : Fill) : Prop :=
  ∃ key ttl fetch, o.fetched? = some (key, ttl, fetch) ∧ f.code = .pause (x.fill key ttl fetch)

variable (me : Nat) (h : Heap) {F : Fill → Prop}

theorem leads_request (r : Store.Request) :
    Call.Leads x.store (r.missed h.now (h.tiers.store x.store)) F h
      ((Call.onStore x.store fun now ↦ r.apply now).exec me h []) :=
  Call.leads_onStore fun hfailed ↦ r.spared h.now hfailed

/-- An operation that counts nothing where it fails. -/
theorem leads_refusing (op : Store → Outcome α × Store) (hop : ∀ now, Store.Refusing now op) :
    Call.Leads x.store 0 F h ((Call.onStore x.store fun _ ↦ op).exec me h []) :=
  Call.leads_onStore fun hfailed ↦ (hop h.now _ hfailed).spared

theorem leads_blpop (timeout : Nat) (keys : List String) :
    Call.Leads x.store 0 F h ((x.blpop timeout keys).exec me h []) := by
  unfold StoreHandle.blpop
  simp only [Call.exec]
  by_cases hoffline : (h.tiers.store x.store).offline = true
  · rw [if_pos hoffline]
    exact Call.leads_done fun _ ↦ Call.spares_self x.store h []
  · rw [if_neg hoffline]
    refine Call.leads_pop (fun _ ↦ ?_) (fun a ↦ ?_) h
    · exact trivial
    · cases a with
      | ok taken => cases taken <;> exact trivial
      | error f => exact trivial

theorem leads_getOrSet (key : String) (ttl : Nat) (fetch : Fetch) :
    Call.Leads x.store ((getOrSet key ttl fetch).missed x h) ((getOrSet key ttl fetch).Fills x) h
      ((x.tier.getOrSet key ttl fetch).exec me h []) := by
  have hspares (hfailed : (Store.get h.now key (h.tiers.store x.store)).1.Failed) (h' : Heap)
      (htiers : h'.tiers =
        h.tiers.setStore x.store (Store.get h.now key (h.tiers.store x.store)).2) :
      (⟨h, h', []⟩ : Call.Step).Spares x.store ((getOrSet key ttl fetch).missed x h) := by
    unfold Call.Step.Spares
    rw [htiers, Tiers.store_setStore, if_pos rfl]
    exact Store.spared_get h.now key hfailed
  change Call.Leads _ _ _ h (Call.exec me (Call.bind (x.get key) _) h [])
  simp only [StoreHandle.get, Call.onStore, Call.bind, Call.exec]
  cases houtcome : (Store.get h.now key (h.tiers.store x.store)).1 with
  | ok v => exact Call.leads_done fun hnot ↦ absurd trivial hnot
  | fault f =>
    rw [houtcome] at hspares
    cases f with
    | notFound =>
      -- the wait for the fill begins in the step of the read, and touches no store
      change Call.Leads _ _ _ h (Call.exec me (.join x.guard key (x.fill key ttl fetch) .done) _ [])
      simp only [Call.exec]
      split
      · exact ⟨.await fun _ ↦ trivial, fun _ ↦ hspares trivial _ rfl,
          fun _ hf ↦ absurd hf List.not_mem_nil⟩
      · refine ⟨.await fun _ ↦ trivial, fun _ ↦ hspares trivial _ rfl, fun f hf ↦ ?_⟩
        rw [List.mem_singleton.mp hf]
        exact ⟨key, ttl, fetch, rfl, rfl⟩
    | _ => exact Call.leads_done fun _ ↦ hspares trivial _ rfl
  | overflow =>
    rw [houtcome] at hspares
    exact Call.leads_crash (hspares trivial _ rfl)

/-- What the first step of an operation leads to. -/
theorem leads (o : Operation α) :
    Call.Leads x.store (o.missed x h) (o.Fills x) h ((o.call x).exec me h []) := by
  cases o with
  | get key => exact leads_request x me h (.get key)
  | contains key => exact leads_request x me h (.contains key)
  | set key value ttl => exact leads_request x me h (.set key value ttl)
  | del key => exact leads_request x me h (.del key)
  | incr key => exact leads_request x me h (.incr key)
  | rpush key values => exact leads_request x me h (.rpush key values)
  | blpop timeout keys => exact leads_blpop x me h timeout keys
  | ltrim key start stop => exact leads_request x me h (.ltrim key start stop)
  | eval script keys args => exact leads_request x me h .eval
  | sadd key members => exact leads_request x me h (.sadd key members)
  | sismember key member => exact leads_request x me h (.sismember key member)
  | getOrSet key ttl fetch => exact leads_getOrSet x me h key ttl fetch
  | stats => exact Call.leads_done fun _ ↦ Call.spares_self x.store h []
  | close => exact Call.leads_done fun _ ↦ Call.spares_self x.store h []
  | publish channel payload =>
    exact leads_refusing x me h _ fun now ↦ Store.refusing_publish now channel payload
  | publishMany channel payloads =>
    exact leads_refusing x me h _ fun now ↦ Store.refusing_publishMany now channel payloads
  | subscribe channel =>
    exact leads_refusing x me h _ fun now ↦ Store.refusing_subscribe now channel

end Operation

/-! ### Fills that fail -/

/-- Two steps begin with one heap and leave the store `s` the same. -/
def SameOn (s : Nat) (a b : Call.Step) : Prop :=
  b.before = a.before ∧ b.after.tiers.store s = a.after.tiers.store s

section Fill

variable {x : StoreHandle} {key : String} {ttl : Nat} {me : Nat}

/-- What a fill does after its fetch: it stores a value, and answers what was fetched. -/
def deliver (x : StoreHandle) (key : String) (ttl : Nat) :
    Except String String → Call (Answer String)
  | .ok v => (x.set key v ttl).bind fun _ ↦ .done (.ok v)
  | .error source => .done (.error (.fetchFailed source))

theorem fill_eq (x : StoreHandle) (key : String) (ttl : Nat) (fetch : Fetch) :
    x.fill key ttl fetch = fetch.bind (x.deliver key ttl) := by
  have hbind : x.fill key ttl fetch = fetch.bind _ := Call.bind_assoc fetch _ _
  rw [hbind]
  refine congrArg fetch.bind (funext fun r ↦ ?_)
  cases r with
  | ok v => exact Call.bind_assoc (x.set key v ttl) _ _
  | error source => rfl

theorem resumes_deliver {r : Except String String} {c : Call (Answer String)}
    (h : Call.Resumes (x.deliver key ttl r) c) : c = x.deliver key ttl r := by
  cases r <;> cases h <;> rfl

/-- What a fill does after its fetch ends in the same step. Unless it ends well the store is the
same as before. -/
theorem exec_deliver (r : Except String String) (h : Heap) (fills : List Fill) :
    let p := (x.deliver key ttl r).exec me h fills
    p.rest.Ended ∧ (¬ p.rest.Succeeded → p.heap.tiers.store x.store = h.tiers.store x.store) := by
  cases r with
  | error source => exact ⟨trivial, fun _ ↦ rfl⟩
  | ok v =>
    simp only [deliver, StoreHandle.set, Call.onStore, Call.bind, Call.exec]
    cases houtcome : (Store.set h.now key v ttl (h.tiers.store x.store)).1 with
    | ok _ => exact ⟨trivial, fun hnot ↦ absurd trivial hnot⟩
    | fault f => exact ⟨trivial, fun hnot ↦ absurd trivial hnot⟩
    | overflow =>
      refine ⟨trivial, fun _ ↦ ?_⟩
      change (h.tiers.setStore x.store _).store x.store = _
      rw [Tiers.store_setStore, if_pos rfl, Store.set_of_overflow houtcome]

/-- A fill goes on with its fetch, or both have ended. -/
inductive Asks (x : StoreHandle) (key : String) (ttl : Nat) : Fetch → Call (Answer String) → Prop
  /-- The fetch goes on. -/
  | asking (c : Fetch) : Asks x key ttl c (c.bind (x.deliver key ttl))
  /-- Both have ended. -/
  | ended {c : Fetch} {d : Call (Answer String)} (hc : c.Ended) (hd : d.Ended) : Asks x key ttl c d

/-- A fill that does not end well takes the steps of its fetch: the store is the same after each. -/
theorem Asks.course {c : Fetch} {d rest : Call (Answer String)} {steps : List Call.Step}
    (hd : Asks x key ttl c d) (h : Call.Course me d steps rest) (hrest : ¬ rest.Succeeded) :
    ∃ own c', Call.Course me c own c' ∧ List.Forall₂ (SameOn x.store) own steps := by
  induction h generalizing c with
  | nil d => exact ⟨[], c, .nil c, .nil⟩
  | @cons d d' rest later hresumes h hlater ih =>
    have hextend {c' : Fetch} (hc : Call.Resumes c c')
        (hnext : Asks x key ttl (c'.exec me h []).rest (d'.exec me h []).rest)
        (hstore : (d'.exec me h []).heap.tiers.store x.store =
          (c'.exec me h []).heap.tiers.store x.store) :
        ∃ own c', Call.Course me c own c' ∧ List.Forall₂ (SameOn x.store) own
          (⟨h, (d'.exec me h []).heap, (d'.exec me h []).fills⟩ :: later) := by
      obtain ⟨own, c'', hown, hsame⟩ := ih hnext hrest
      exact ⟨_, c'', .cons hc h hown, .cons ⟨rfl, hstore⟩ hsame⟩
    have hnot : ¬ (d'.exec me h []).rest.Succeeded := fun hsucceeded ↦ by
      rw [hsucceeded.ended.course hlater] at hrest
      exact hrest hsucceeded
    cases hd with
    | ended hc hd =>
      obtain rfl := hd.resumes hresumes
      refine hextend (.same c) ?_ ?_
      · rw [hc.exec, hd.exec]
        exact .ended hc hd
      · rw [hc.exec, hd.exec]
    | asking =>
      obtain ⟨c', hc, rfl⟩ := Call.Resumes.of_bind resumes_deliver hresumes
      have hbind := Call.exec_bind me c' (x.deliver key ttl) h []
      have hnext : Asks x key ttl (c'.exec me h []).rest
            ((c'.bind (x.deliver key ttl)).exec me h []).rest ∧
          ((c'.bind (x.deliver key ttl)).exec me h []).heap.tiers.store x.store =
            (c'.exec me h []).heap.tiers.store x.store := by
        rw [hbind] at hnot ⊢
        generalize c'.exec me h [] = p at hnot ⊢
        obtain ⟨h', fills, rest'⟩ := p
        cases rest' with
        | done r =>
          obtain ⟨hended, hstore⟩ := exec_deliver r h' fills
          exact ⟨.ended trivial hended, hstore hnot⟩
        | _ => exact ⟨.asking _, rfl⟩
      exact hextend hc hnext.1 hnext.2

theorem course_fill {fetch : Fetch} {rest : Call (Answer String)} {asked : List Call.Step}
    (h : Call.Course me (.pause (x.fill key ttl fetch)) asked rest) (hfailed : rest.Failed) :
    ∃ own c, Call.Course me (.pause fetch) own c ∧ List.Forall₂ (SameOn x.store) own asked := by
  rw [fill_eq] at h
  exact (Asks.asking (.pause fetch)).course h hfailed.not_succeeded

end Fill

namespace Operation

/-- An operation goes on as itself at its first step, and it has not failed before. -/
theorem fresh {α : Type} (o : Operation α) (x : StoreHandle) :
    ¬ (o.call x).Failed ∧ ∀ {c}, Call.Resumes (o.call x) c → c = o.call x := by
  cases o with
  | _ =>
    refine ⟨id, fun hresumes ↦ ?_⟩
    cases hresumes
    rfl

/-- An operation that ends with an error, or cannot go on, has left the store intact, whatever
others did while it waited: at each of its steps the store shows the same under every key
afterwards, with the same deadlines, and its channels, the payloads unread on them and its counters
are what they were, except that the first step counts one miss where the operation reads a key and
finds no live value. A fill that it has started and that fails has taken the steps of its fetch and
has done nothing else to the store. -/
theorem intact {α : Type} (x : StoreHandle) (o : Operation α) {me : Nat} {steps : List Call.Step}
    {rest : Call (Answer α)} (hcourse : Call.Course me (o.call x) steps rest)
    (hfailed : rest.Failed) :
    (∃ first later, steps = first :: later ∧ first.Spares x.store (o.missed x first.before) ∧
      ∀ step ∈ later, step.Spares x.store 0) ∧
    ∀ step ∈ steps, ∀ f ∈ step.fills, ∃ key ttl fetch,
      o.fetched? = some (key, ttl, fetch) ∧ f.code = .pause (x.fill key ttl fetch) ∧
        ∀ asked rest, Call.Course f.id f.code asked rest → rest.Failed →
          ∃ own c, Call.Course f.id (.pause fetch) own c ∧
            List.Forall₂ (SameOn x.store) own asked := by
  obtain ⟨hnot, hsame⟩ := o.fresh x
  cases hcourse with
  | nil => exact absurd hfailed hnot
  | @cons _ c _ later hresumes h hlater =>
    obtain rfl := hsame hresumes
    have hfirst := o.leads x me h
    have hclass : ∀ {c c' : Call (Answer α)}, Call.Waiting x.store c → Call.Resumes c c' → ∀ h,
        let p := c'.exec me h []
        Call.Waiting x.store p.rest ∧ (¬ p.rest.Succeeded →
          (⟨h, p.heap, p.fills⟩ : Call.Step).Spares x.store 0 ∧ p.fills = []) := by
      intro c c' hc hresumes h
      have hleads : Call.Leads x.store 0 (fun _ ↦ False) h (c'.exec me h []) := hc.leads hresumes h
      exact ⟨hleads.waiting, fun hnot ↦
        ⟨hleads.spares hnot, List.eq_nil_iff_forall_not_mem.mpr hleads.fills⟩⟩
    have hrest := hlater.forall_steps (P := fun step ↦ step.Spares x.store 0 ∧ step.fills = [])
      hclass hfirst.waiting hfailed.not_succeeded
    have hnot : ¬ ((o.call x).exec me h []).rest.Succeeded := fun hsucceeded ↦ by
      rw [hsucceeded.ended.course hlater] at hfailed
      exact hfailed.not_succeeded hsucceeded
    refine ⟨⟨_, later, rfl, hfirst.spares hnot, fun step hstep ↦ (hrest step hstep).1⟩,
      fun step hstep f hf ↦ ?_⟩
    rcases List.mem_cons.mp hstep with rfl | hstep
    · obtain ⟨key, ttl, fetch, hfetched, hcode⟩ := hfirst.fills f hf
      refine ⟨key, ttl, fetch, hfetched, hcode, fun asked rest hasked hfailed ↦ ?_⟩
      rw [hcode] at hasked
      exact course_fill hasked hfailed
    · rw [(hrest step hstep).2] at hf
      exact absurd hf List.not_mem_nil

/-- A store holds a text for ever, one for a while, and one whose deadline is past. A read finds
nothing under the last key and waits for its fetch, which fails. It has counted a miss, and after
each of its steps the store shows the two texts with their deadlines. -/
theorem intact_of_failed_fetch :
    let x : StoreHandle := ⟨0, 1⟩
    let o : Operation String := .getOrSet "k" 0 (.done (.error "down"))
    let held := (Store.set 0 "b" "2" (Clock.secs 60) (Store.set 0 "a" "1" 0 .empty).2).2
    let h : Heap := { Heap.initial with
      now := Clock.secs 2
      tiers := Tiers.empty.setStore 0 (Store.set 0 "k" "old" (Clock.secs 1) held).2 }
    ∃ first second,
      Call.Course 0 (o.call x) [first, second] (.done (.error (.fetchFailed "down"))) ∧
      first.before = h ∧ second.before = first.after ∧ first.Spares 0 1 ∧ second.Spares 0 0 ∧
      ∀ step ∈ [first, second],
        (step.after.tiers.store 0).live? h.now "a" = some ⟨.text "1", .never⟩ ∧
        (step.after.tiers.store 0).live? h.now "b" = some ⟨.text "2", .due (Clock.secs 60)⟩ ∧
        (step.after.tiers.store 0).live? h.now "k" = none := by
  intro x o held h
  have hcourse : ∃ first second, Call.Course 0 (o.call x) [first, second]
      (.done (.error (.fetchFailed "down"))) ∧ first.before = h ∧ second.before = first.after ∧
        first.after.now = h.now :=
    ⟨_, _, .cons (.same _) h (.cons (.awaited 0 .done (.error (.fetchFailed "down")))
      ((o.call x).exec 0 h []).heap (.nil _)), rfl, rfl, by decide +kernel⟩
  obtain ⟨first, second, hcourse, hfirst, hsecond, hnow⟩ := hcourse
  obtain ⟨⟨_, _, hsteps, hone, hnone⟩, -⟩ := intact x o hcourse trivial
  cases hsteps
  have hmissed : o.missed x h = 1 := by decide +kernel
  rw [hfirst, hmissed] at hone
  have hnone := hnone second (List.mem_singleton_self _)
  -- what is shown after each of the two steps is what was shown before the first one
  have hafter : (first.after.tiers.store 0).live? h.now = (h.tiers.store 0).live? h.now := by
    have hlive := hone.live
    rw [hfirst] at hlive
    exact hlive
  have hlater : (second.after.tiers.store 0).live? h.now = (h.tiers.store 0).live? h.now := by
    have hlive := hnone.live
    rw [hsecond, hnow] at hlive
    exact hlive.trans hafter
  have hshown : (h.tiers.store 0).live? h.now "a" = some ⟨.text "1", .never⟩ ∧
      (h.tiers.store 0).live? h.now "b" = some ⟨.text "2", .due (Clock.secs 60)⟩ ∧
      (h.tiers.store 0).live? h.now "k" = none := by decide +kernel
  refine ⟨first, second, hcourse, hfirst, hsecond, hone, hnone, fun step hstep ↦ ?_⟩
  rcases List.mem_cons.mp hstep with hstep | hstep
  · rw [hstep, hafter]
    exact hshown
  · rw [List.mem_singleton.mp hstep, hlater]
    exact hshown

end Operation

end StoreHandle

end TwoTier
