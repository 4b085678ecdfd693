import Mathlib.Data.List.Infix
import Mathlib.Logic.Function.Basic
import CertGuard.Lib.TransitionRun
import CertGuard.Model.Channel
import CertGuard.Server.EntryRequests

/-!
# The memo of registry lookups

A lookup reduces the host to a domain and asks the memo, unless it is forced to ask the registry.
What the registry is asked for under the context of the request is put into the memo, an error
like an answer. The lock is held to read and to write, not while the registry is asked, so that
lookups of other requests come in between.

## Main definitions

* `registrable` — the domain of a host
* `RdapCache`, `RdapCache.fresh?`, `RdapCache.put` — the memo
* `Lookup`, `LookupPc` — a call of `Lookup`, and where it stands
* `RegistrySystem`, `RegistrySystem.step` — any number of calls over one memo

## Main results

* `RdapCache.fresh?_put_self`, `RdapCache.get?_put` — what is found after a write
* `RegistrySystem.step_cases` — what a step can be
-/

namespace CertGuard

open Transition

/-! ### Domains -/

/-- What the domain of a host is made with: `strings.ToLower`, the list of public suffixes, and
the quoting of an error's text. -/
structure DomainNames where
  toLower : List Char → List Char
  effectiveTLDPlusOne : List Char → Except String (List Char)
  quote : List Char → String

/-- `strings.TrimSuffix`. -/
def trimSuffix (s suffix : List Char) : List Char :=
  if suffix <:+ s then s.take (s.length - suffix.length) else s

/-- `rdap.Registrable`. -/
def registrable (names : DomainNames) (host : String) : Except String (List Char) :=
  let h := names.toLower (trimSuffix (trimSpace host.toList) ['.'])
  if h = [] then .error "empty host"
  else
    let h := trimPrefix h ['*', '.']
    if h.any fun c => c ∈ [':', '/', ' '] then
      .error ("not a bare hostname: " ++ names.quote host.toList)
    else names.effectiveTLDPlusOne h

/-- The key a host is looked up under. -/
def cacheKey (names : DomainNames) (host : String) : Except String (List Char) :=
  (registrable names host).map names.toLower

/-! ### The memo -/

/-- What comes of asking the registry: its word, or whatever else keeps a lookup from having it,
or the end of the context it was asked under. -/
inductive LookupOutcome
  | answered (answer : Except LookupError DomainResult)
  | cut (msg : String)
  deriving DecidableEq

namespace LookupOutcome

/-- The context ended it. -/
def IsCut : LookupOutcome → Prop
  | answered _ => False
  | cut _ => True

instance : DecidablePred IsCut
  | answered _ => isFalse id
  | cut _ => isTrue trivial

/-- What `rdap.Lookup` returns. -/
def answer : LookupOutcome → Except LookupError DomainResult
  | answered a => a
  | cut msg => .error ⟨false, msg⟩

end LookupOutcome

/-- An answer, with the context it was had under and when. -/
structure Fetched where
  outcome : LookupOutcome
  ctx : Nat
  event : Nat
  deriving DecidableEq

structure RdapEntry where
  got : Fetched
  when : Int

/-- `rdapCache`, without its lock. -/
structure RdapCache where
  ttl : Int
  m : List (List Char × RdapEntry)
  ttl_pos : 0 < ttl

/-- A time to live that is not positive becomes ten minutes. -/
def newRDAPCache (ttl : Int) : RdapCache where
  ttl := if ttl ≤ 0 then 10 * 60 * 1000000000 else ttl
  m := []
  ttl_pos := by split_ifs <;> omega

namespace RdapCache

variable (cache : RdapCache) (key : List Char) (now : Int)

/-- The entry of a domain. -/
def get? : Option RdapEntry := (cache.m.find? fun e => e.1 = key).map Prod.snd

/-- The answer in the memo, unless it is too old. -/
def fresh? : Option Fetched :=
  match cache.get? key with
  | some e => if now - e.when < cache.ttl then some e.got else none
  | none => none

/-- Puts an answer into the memo, and drops what is too old once there is much in it. -/
def put (got : Fetched) : RdapCache :=
  let m := (key, ⟨got, now⟩) :: cache.m.filter fun e => e.1 ≠ key
  { cache with m := if 512 < m.length then m.filter fun e => now - e.2.when < cache.ttl else m }

variable {cache key now} {key' : List Char} {got : Fetched} {e : RdapEntry}

theorem fresh?_eq_some_iff : cache.fresh? key now = some got ↔
    ∃ e, cache.get? key = some e ∧ now - e.when < cache.ttl ∧ e.got = got := by
  unfold fresh?
  cases cache.get? key with
  | none => simp
  | some e => simp

@[simp] theorem get?_newRDAPCache (ttl : Int) : (newRDAPCache ttl).get? key = none := rfl

@[simp] theorem ttl_put : (cache.put key now got).ttl = cache.ttl := rfl

theorem mem_of_get? (h : cache.get? key = some e) : (key, e) ∈ cache.m := by
  obtain ⟨x, hx, rfl⟩ := Option.map_eq_some_iff.mp h
  have hkey : x.1 = key := by simpa using List.find?_some hx
  exact hkey ▸ List.mem_of_find?_eq_some hx

/-- What is in the memo after a write was in it before, or is what was written. -/
theorem mem_put {x : List Char × RdapEntry} (h : x ∈ (cache.put key now got).m) :
    x = (key, ⟨got, now⟩) ∨ x ∈ cache.m ∧ x.1 ≠ key := by
  have hmem : x ∈ (key, (⟨got, now⟩ : RdapEntry)) :: cache.m.filter fun e => e.1 ≠ key := by
    simp only [put] at h
    split_ifs at h
    · exact List.mem_of_mem_filter h
    · exact h
  rcases List.mem_cons.mp hmem with rfl | hmem
  · exact .inl rfl
  · exact .inr (by simpa using hmem)

/-- What was just written is found, whatever is dropped. -/
theorem get?_put_self : (cache.put key now got).get? key = some ⟨got, now⟩ := by
  simp only [get?, put]
  split_ifs
  · rw [List.filter_cons_of_pos (by simpa using cache.ttl_pos)]
    simp
  · simp

theorem fresh?_put_self : (cache.put key now got).fresh? key now = some got :=
  fresh?_eq_some_iff.mpr ⟨_, get?_put_self, by simpa using cache.ttl_pos, rfl⟩

end RdapCache

/-! ### Calls of `Lookup` -/

/-- What `Lookup` is called with; a context is known by its number. -/
structure LookupCall where
  ctx : Nat
  host : String
  force : Bool
  deriving DecidableEq

/-- What a call returns once it has a domain to ask for: whether its own context had ended by
then, and when the refresh of the domain had begun that completed last. -/
structure Returned where
  key : List Char
  got : Fetched
  ended : Bool
  refreshed : Option Nat

/-- Where a call stands: before one of its statements, or at its end. -/
inductive LookupPc
  | look
  | fetch (key : List Char)
  | store (key : List Char) (got : Fetched)
  | refused (msg : String)
  | returned (r : Returned)

/-- A call that was made, and when. -/
structure Lookup where
  call : LookupCall
  began : Nat
  pc : LookupPc

/-- Calls over one memo. No step looks at `events`, which counts them, or at `refreshed`, when
the refresh of a domain began that completed last. -/
structure RegistrySystem where
  cache : RdapCache
  now : Int
  ended : List Nat := []
  lookups : List Lookup := []
  events : Nat := 0
  refreshed : List Char → Option Nat := fun _ => none

/-- Time passes, a context ends, `Lookup` is called, or a call takes its next statement. -/
inductive RegistryAct
  | wait (d : Nat)
  | endContext (ctx : Nat)
  | call (c : LookupCall)
  | look (i : Nat)
  | fetch (i : Nat) (out : LookupOutcome)
  | store (i : Nat)

namespace RegistrySystem

/-- Nothing was looked up yet. -/
def start (ttl now : Int) : RegistrySystem where
  cache := newRDAPCache ttl
  now := now

variable (names : DomainNames) (y : RegistrySystem)

/-- What a call returns. -/
def returns (c : LookupCall) (key : List Char) (got : Fetched) : LookupPc :=
  .returned ⟨key, got, decide (c.ctx ∈ y.ended), y.refreshed key⟩

/-- `Lookup` up to where the registry is asked. -/
def look (c : LookupCall) : LookupPc :=
  match cacheKey names c.host with
  | .error msg => .refused msg
  | .ok key =>
    if c.force then .fetch key
    else
      match y.cache.fresh? key y.now with
      | some got => y.returns c key got
      | none => .fetch key

/-- Call `i` goes on. -/
def goes (i : Nat) (l : Lookup) : RegistrySystem :=
  { y with lookups := y.lookups.set i l, events := y.events + 1 }

/-- Call `i` puts its answer into the memo and returns it. -/
def stores (i : Nat) (c : LookupCall) (began : Nat) (key : List Char) (got : Fetched) :
    RegistrySystem :=
  { y.goes i ⟨c, began, y.returns c key got⟩ with
    cache := y.cache.put key y.now got
    refreshed :=
      if c.force then Function.update y.refreshed key (some began) else y.refreshed }

/-- A step. A registry is not asked further once the context has ended it, which it can only
after its end. -/
def step (y : RegistrySystem) : RegistryAct → Option RegistrySystem
  | .wait d => some { y with now := y.now + d, events := y.events + 1 }
  | .endContext ctx => some { y with ended := ctx :: y.ended, events := y.events + 1 }
  | .call c =>
    some { y with lookups := y.lookups ++ [⟨c, y.events, .look⟩], events := y.events + 1 }
  | .look i =>
    match y.lookups[i]? with
    | some ⟨c, began, .look⟩ => some (y.goes i ⟨c, began, y.look names c⟩)
    | _ => none
  | .fetch i out =>
    match y.lookups[i]? with
    | some ⟨c, began, .fetch key⟩ =>
      if out.IsCut ∧ c.ctx ∉ y.ended then none
      else some (y.goes i ⟨c, began, .store key ⟨out, c.ctx, y.events⟩⟩)
    | _ => none
  | .store i =>
    match y.lookups[i]? with
    | some ⟨c, began, .store key got⟩ => some (y.stores i c began key got)
    | _ => none

variable {names y} {y' : RegistrySystem} {act : RegistryAct} {i : Nat} {c : LookupCall}
variable {began : Nat} {key : List Char} {got : Fetched} {l : Lookup} {pc : LookupPc}

/-- What a step can be. -/
theorem step_cases (hstep : y.step names act = some y') :
    (∃ d, act = .wait d ∧ y' = { y with now := y.now + (d : Nat), events := y.events + 1 }) ∨
    (∃ ctx, act = .endContext ctx ∧
      y' = { y with ended := ctx :: y.ended, events := y.events + 1 }) ∨
    (∃ c, act = .call c ∧ y' = { y with
      lookups := y.lookups ++ [⟨c, y.events, .look⟩], events := y.events + 1 }) ∨
    (∃ i c began, act = .look i ∧ y.lookups[i]? = some ⟨c, began, .look⟩ ∧
      y' = y.goes i ⟨c, began, y.look names c⟩) ∨
    (∃ i out c began key, act = .fetch i out ∧ y.lookups[i]? = some ⟨c, began, .fetch key⟩ ∧
      (out.IsCut → c.ctx ∈ y.ended) ∧
      y' = y.goes i ⟨c, began, .store key ⟨out, c.ctx, y.events⟩⟩) ∨
    ∃ i c began key got, act = .store i ∧ y.lookups[i]? = some ⟨c, began, .store key got⟩ ∧
      y' = y.stores i c began key got := by
  cases act with
  | wait d => exact .inl ⟨d, rfl, (Option.some.inj hstep).symm⟩
  | endContext ctx => exact .inr (.inl ⟨ctx, rfl, (Option.some.inj hstep).symm⟩)
  | call c => exact .inr (.inr (.inl ⟨c, rfl, (Option.some.inj hstep).symm⟩))
  | look i =>
    simp only [step] at hstep
    split at hstep
    · next c began hi =>
      exact .inr (.inr (.inr (.inl ⟨i, c, began, rfl, hi, (Option.some.inj hstep).symm⟩)))
    · exact absurd hstep (by simp)
  | fetch i out =>
    simp only [step] at hstep
    split at hstep
    · next c began key hi =>
      split_ifs at hstep with hcut
      have hended : out.IsCut → c.ctx ∈ y.ended := fun h => by_contra fun hn => hcut ⟨h, hn⟩
      exact .inr (.inr (.inr (.inr (.inl
        ⟨i, out, c, began, key, rfl, hi, hended, (Option.some.inj hstep).symm⟩))))
    · exact absurd hstep (by simp)
  | store i =>
    simp only [step] at hstep
    split at hstep
    · next c began key got hi =>
      exact .inr (.inr (.inr (.inr (.inr
        ⟨i, c, began, key, got, rfl, hi, (Option.some.inj hstep).symm⟩))))
    · exact absurd hstep (by simp)

/-- A call that has gone on is the one that went, or one of the others. -/
theorem mem_goes (h : l ∈ (y.goes i ⟨c, began, pc⟩).lookups) : l = ⟨c, began, pc⟩ ∨ l ∈ y.lookups :=
  (List.mem_or_eq_of_mem_set h).symm

end RegistrySystem

end CertGuard
