import Opifex.Lib.JsonValue
import Opifex.Lib.Recency
import Opifex.Lib.Text

/-!
# The conditional-request store

What GitHub last sent for a URL, with the tag that proves whether it still holds.
The store is bounded, and forgets what was asked for longest ago. A 304 has no body,
so what it answers with is the entry: that entry has to be the last one stored for
the URL, and not one that was invalidated since.
-/

namespace Opifex

/-- The methods a request may have. Each has responses of its own, so the method is part
of the key of what is stored. -/
inductive HttpMethod where
  | get
  | post
  | patch
  | put
  | delete
deriving DecidableEq, Repr

/-- The method as a request spells it, and as a key starts. -/
def HttpMethod.name : HttpMethod → String
  | .get => "GET"
  | .post => "POST"
  | .patch => "PATCH"
  | .put => "PUT"
  | .delete => "DELETE"

/-- The last full response to a request: what a 304 is answered from, together with the
tag that the next request is made with. -/
structure CachedResponse where
  etag : String
  /-- The parsed body of the last full response. -/
  body : JsonValue
  /-- The `Link` header of that response, so that a 304 can replay pagination. -/
  link : Option String

/-- The entries, in the order in which they were last used, and how many there may be.
-/
structure EtagCache where
  entries : KeyMap String CachedResponse
  maxEntries : ℕ

namespace EtagCache

/-- A fresh store, with room for so many entries. A restart of the process starts with
one. -/
def create (maxEntries : ℕ) : EtagCache := ⟨KeyMap.empty, maxEntries⟩

/-- The key of a request: its method and its URL. The ETags of two methods are not
interchangeable. -/
def key (method : HttpMethod) (url : String) : String := method.name ++ " " ++ url

/-- What is stored for a request. Reading an entry makes it the one used last, so the
store that is left is another. -/
def get (cache : EtagCache) (method : HttpMethod) (url : String) :
    Option CachedResponse × EtagCache :=
  let (entry, entries) := Recency.read cache.entries (key method url)
  (entry, { cache with entries := entries })

/-- Store a response. It becomes the one used last, and the entries used least recently
are evicted until the bound is kept. -/
def set (cache : EtagCache) (method : HttpMethod) (url : String)
    (entry : CachedResponse) : EtagCache :=
  { cache with
    entries := Recency.write cache.maxEntries cache.entries (key method url) entry }

/-- The keys that a repository's path occurs in. A repository whose name continues that
path is met as well. -/
def concerns (owner name : String) (key : String) : Bool :=
  Text.includes key ("/repos/" ++ owner ++ "/" ++ name)

/-- Drop everything for one repository. What a token could see once must not be replayed
when it no longer may. -/
def invalidateRepository (cache : EtagCache) (owner name : String) : EtagCache :=
  { cache with entries := cache.entries.keep fun key => !concerns owner name key }

/-- Drop everything. -/
def clear (cache : EtagCache) : EtagCache := { cache with entries := KeyMap.empty }

/-- What the store is asked to do. A run of the process is a list of such calls, since
nothing else touches the entries. -/
inductive Call where
  | get (method : HttpMethod) (url : String)
  | set (method : HttpMethod) (url : String) (entry : CachedResponse)
  | invalidateRepository (owner name : String)
  | clear

/-- What a call leaves of the store. -/
def after (cache : EtagCache) : Call → EtagCache
  | .get method url => (cache.get method url).2
  | .set method url entry => cache.set method url entry
  | .invalidateRepository owner name => cache.invalidateRepository owner name
  | .clear => cache.clear

/-- What calls leave of the store, one after another. -/
def afterAll (cache : EtagCache) (calls : List Call) : EtagCache := calls.foldl after cache

/-- A call that leaves what is stored for a URL: it stores nothing under the key and
drops no repository that the key concerns. Eviction is counted apart. -/
def Call.spares (method : HttpMethod) (url : String) : Call → Prop
  | .get _ _ => True
  | .set method' url' _ => ¬(method' = method ∧ url' = url)
  | .invalidateRepository owner name => concerns owner name (key method url) = false
  | .clear => False

/-- The URLs that calls ask for or store, with their methods. Their number is what the
bound of the store is compared with. -/
def askedFor : List Call → Finset (HttpMethod × String)
  | [] => ∅
  | .get method url :: calls => insert (method, url) (askedFor calls)
  | .set method url _ :: calls => insert (method, url) (askedFor calls)
  | _ :: calls => askedFor calls

/-! ## As a cache of the library -/

/-- A call as the library has it: a read, a write under the key, or the removal of a
kind of key. -/
def Call.op : Call → Recency.Op String CachedResponse
  | .get method url => .get (key method url)
  | .set method url entry => .put (key method url) entry
  | .invalidateRepository owner name => .remove (concerns owner name)
  | .clear => .remove fun _ => true

theorem key_inj {method method' : HttpMethod} {url url' : String} :
    key method url = key method' url' ↔ method = method' ∧ url = url' := by
  constructor
  · intro h
    have hblank : ∀ method : HttpMethod, ' ' ∉ method.name.toList := by
      intro method
      cases method <;> decide
    have htext := congrArg String.toList h
    unfold key at htext
    simp only [String.toList_append, List.append_assoc,
      show " ".toList = [' '] by decide, List.singleton_append] at htext
    obtain ⟨hname, hurl⟩ := Text.append_mark_inj (hblank _) (hblank _) htext
    refine ⟨?_, String.toList_inj.mp hurl⟩
    revert hname
    cases method <;> cases method' <;> decide
  · rintro ⟨rfl, rfl⟩
    rfl

theorem maxEntries_afterAll (cache : EtagCache) (calls : List Call) :
    (cache.afterAll calls).maxEntries = cache.maxEntries := by
  induction calls generalizing cache with
  | nil => rfl
  | cons call calls ih =>
    show ((cache.after call).afterAll calls).maxEntries = _
    rw [ih]
    cases call <;> rfl

theorem entries_after (cache : EtagCache) (call : Call) :
    (cache.after call).entries
      = Recency.step cache.maxEntries cache.entries call.op := by
  cases call with
  | get method url => rfl
  | set method url entry => rfl
  | invalidateRepository owner name => rfl
  | clear =>
    have hnone : cache.entries.entries.filter (fun _ => !true) = [] :=
      List.filter_eq_nil_iff.mpr fun _ _ => Bool.false_ne_true
    show KeyMap.empty = KeyMap.keep cache.entries fun _ => !true
    unfold KeyMap.keep KeyMap.empty
    simp only [hnone]

/-- **The store is the library's cache.** -/
theorem entries_afterAll (cache : EtagCache) (calls : List Call) :
    (cache.afterAll calls).entries
      = Recency.run cache.maxEntries cache.entries (calls.map (·.op)) := by
  induction calls generalizing cache with
  | nil => rfl
  | cons call calls ih =>
    show ((cache.after call).afterAll calls).entries = _
    rw [ih, entries_after]
    have hmax : (cache.after call).maxEntries = cache.maxEntries :=
      maxEntries_afterAll cache [call]
    rw [hmax]
    rfl

theorem spares_op {method : HttpMethod} {url : String} {call : Call} :
    call.op.spares (key method url) ↔ call.spares method url := by
  cases call with
  | get method' url' => exact Iff.rfl
  | set method' url' entry => exact not_congr key_inj
  | invalidateRepository owner name => exact Iff.rfl
  | clear => exact iff_of_false (fun h => Bool.noConfusion h) id

theorem used_ops (calls : List Call) :
    Recency.used (calls.map (·.op)) = (askedFor calls).image fun asked =>
      key asked.1 asked.2 := by
  induction calls with
  | nil => rfl
  | cons call calls ih =>
    show call.op.uses ∪ Recency.used (calls.map (·.op)) = _
    rw [ih]
    cases call with
    | get method url =>
      show {key method url} ∪ _ = (insert (method, url) (askedFor calls)).image _
      rw [Finset.image_insert]
      rfl
    | set method url entry =>
      show {key method url} ∪ _ = (insert (method, url) (askedFor calls)).image _
      rw [Finset.image_insert]
      rfl
    | invalidateRepository owner name => exact Finset.empty_union _
    | clear => exact Finset.empty_union _

/-- What the store answers. -/
theorem get_afterAll (cache : EtagCache) (calls : List Call) (method : HttpMethod)
    (url : String) :
    ((cache.afterAll calls).get method url).1
      = (Recency.run cache.maxEntries cache.entries (calls.map (·.op))).get
        (key method url) := by
  rw [← entries_afterAll]
  exact Recency.fst_read

/-- **The store answers with what it was told last, and forgets no more than it has
to.** It never holds more than its bound; what it answers is the last response stored
for the URL, with no invalidation of it since; and it does answer with that while fewer
other URLs were asked for or stored since than the bound allows. -/
theorem keeps_what_is_used (maxEntries : ℕ) (calls : List Call) (method : HttpMethod)
    (url : String) :
    ((create maxEntries).afterAll calls).entries.entries.length ≤ maxEntries
      ∧ (∀ entry, (((create maxEntries).afterAll calls).get method url).1 = some entry →
        ∃ first later, calls = first ++ .set method url entry :: later
          ∧ ∀ call ∈ later, call.spares method url)
      ∧ ∀ first entry later, calls = first ++ .set method url entry :: later →
        (∀ call ∈ later, call.spares method url) →
        ((askedFor later).erase (method, url)).card < maxEntries →
        (((create maxEntries).afterAll calls).get method url).1 = some entry := by
  have hinj : Function.Injective fun asked : HttpMethod × String =>
      key asked.1 asked.2 :=
    fun a b h => Prod.ext_iff.mpr (key_inj.mp h)
  refine ⟨?_, fun entry hentry => ?_, ?_⟩
  · rw [entries_afterAll]
    exact Recency.length_run_le (Nat.zero_le _)
  · rw [get_afterAll] at hentry
    obtain ⟨hnone, -⟩ | ⟨first, later, hops, hspares⟩ := Recency.found_of_run hentry
    · contradiction
    -- the operation is that of a call
    obtain ⟨calls₁, calls₂, rfl, -, hlater⟩ := List.map_eq_append_iff.mp hops
    obtain ⟨call, calls₃, rfl, hcall, rfl⟩ := List.map_eq_cons_iff.mp hlater
    have hset : call = .set method url entry := by
      cases call with
      | set method' url' entry' =>
        injection hcall with hkey hentry'
        obtain ⟨rfl, rfl⟩ := key_inj.mp hkey
        rw [hentry']
      | get method' url' => exact nomatch hcall
      | invalidateRepository owner name => exact nomatch hcall
      | clear => exact nomatch hcall
    refine ⟨calls₁, calls₃, by rw [hset], fun call' hcall' => ?_⟩
    exact spares_op.mp (hspares call'.op (List.mem_map_of_mem hcall'))
  · rintro first entry later rfl hspares hfew
    rw [get_afterAll, List.map_append, List.map_cons, Recency.run_append]
    refine Recency.get_run_of_few (fun op hop => ?_) ?_
    · obtain ⟨call, hcall, rfl⟩ := List.mem_map.mp hop
      exact spares_op.mpr (hspares call hcall)
    · rw [used_ops, ← Finset.image_erase hinj (askedFor later) (method, url)]
      exact Finset.card_image_le.trans_lt hfew

end EtagCache

end Opifex
