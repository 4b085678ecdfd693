import Mathlib.Data.Fintype.EquivFin
import CertGuard.Server.RegistryCache

/-!
# Whose answer a lookup returns

What is put into the memo is what the registry was asked for, also where the context of the
request ended it, and also where the domain was refreshed in between. Whoever asks next gets that.

## Main definitions

* `NoForeignEnd` — no call returns the end of another's context while its own goes on
* `NoneOutdated` — no call that need not refresh returns an answer older than a completed refresh
* `StoresSound` — what a call must meet when it writes, so that this stays so

## Main results

* `registryAnswers_sound_iff` — both hold however the memo is asked, exactly if every write of the
  run meets this
* `closedTab_answers`, `overtaken_answers` — and runs in which one does not
-/

namespace CertGuard

open Transition

namespace RegistrySystem

/-! ### What is promised -/

/-- A call whose own context had not ended does not return what came of the end of another's. -/
def NoForeignEnd (y : RegistrySystem) : Prop :=
  ∀ l ∈ y.lookups, ∀ r, l.pc = .returned r → r.ended = false → r.got.outcome.IsCut →
    r.got.ctx = l.call.ctx

/-- A call that is not forced returns no answer that was had before the refresh began that
completed last. -/
def NoneOutdated (y : RegistrySystem) : Prop :=
  ∀ l ∈ y.lookups, ∀ r, l.pc = .returned r → l.call.force = false →
    ∀ began, r.refreshed = some began → began ≤ r.got.event

/-- Both. -/
def AnswersSound (y : RegistrySystem) : Prop := y.NoForeignEnd ∧ y.NoneOutdated

/-- What a call puts into the memo is not the end of its context and, unless it is itself a
refresh, no refresh of the domain completed meanwhile that began after the registry answered. -/
def StoresSound (y : RegistrySystem) : RegistryAct → Prop
  | .store i => ∀ c began key got, y.lookups[i]? = some ⟨c, began, .store key got⟩ →
      ¬ got.outcome.IsCut ∧
        (c.force = false → ∀ began', y.refreshed key = some began' → began' ≤ got.event)
  | _ => True

/-! ### What holds in every run -/

/-- What a call that has yet to write goes by. -/
structure Pending (names : DomainNames) (y : RegistrySystem) (l : Lookup) : Prop where
  began_le : l.began ≤ y.events
  key_of_fetch : ∀ key, l.pc = .fetch key → cacheKey names l.call.host = .ok key
  key_of_store : ∀ key got, l.pc = .store key got → cacheKey names l.call.host = .ok key
  began_le_event : ∀ key got, l.pc = .store key got → l.began ≤ got.event
  ended_of_cut : ∀ key got, l.pc = .store key got → got.outcome.IsCut → got.ctx ∈ y.ended

variable {names : DomainNames} {y y' : RegistrySystem} {act : RegistryAct} {i : Nat}
variable {acts : List RegistryAct} {c : LookupCall} {began : Nat} {key : List Char}
variable {got : Fetched} {l : Lookup} {pc : LookupPc} {ttl now : Int}

/-- Where a call stands after it looked. -/
theorem look_cases (names : DomainNames) (y : RegistrySystem) (c : LookupCall) :
    (∃ msg, y.look names c = .refused msg) ∨
    (∃ key, cacheKey names c.host = .ok key ∧ y.look names c = .fetch key) ∨
    ∃ key got, c.force = false ∧ y.cache.fresh? key y.now = some got ∧
      y.look names c = y.returns c key got := by
  unfold look
  cases hkey : cacheKey names c.host with
  | error msg => exact .inl ⟨msg, rfl⟩
  | ok key =>
    cases hforce : c.force with
    | true => exact .inr (.inl ⟨key, rfl, by simp⟩)
    | false =>
      cases hfresh : y.cache.fresh? key y.now with
      | none => exact .inr (.inl ⟨key, rfl, by simp [hfresh]⟩)
      | some got => exact .inr (.inr ⟨key, got, rfl, hfresh, by simp [hfresh]⟩)

/-- A call that has returned is nowhere in between. -/
theorem Pending.of_returned {r : Returned} (hbegan : began ≤ y.events) :
    Pending names y ⟨c, began, .returned r⟩ :=
  ⟨hbegan, by simp, by simp, by simp, by simp⟩

/-- Nothing that happens to others takes anything from a call. -/
theorem Pending.mono (h : Pending names y l) (hevents : y.events ≤ y'.events)
    (hended : ∀ ctx ∈ y.ended, ctx ∈ y'.ended) : Pending names y' l where
  began_le := h.began_le.trans hevents
  key_of_fetch := h.key_of_fetch
  key_of_store := h.key_of_store
  began_le_event := h.began_le_event
  ended_of_cut key got hpc hcut := hended _ (h.ended_of_cut key got hpc hcut)

theorem pending_step (h : ∀ l ∈ y.lookups, Pending names y l)
    (hstep : y.step names act = some y') : ∀ l ∈ y'.lookups, Pending names y' l := by
  rcases step_cases hstep with ⟨d, -, rfl⟩ | ⟨ctx, -, rfl⟩ | ⟨c, -, rfl⟩ |
    ⟨i, c, began, -, hi, rfl⟩ | ⟨i, out, c, began, key, -, hi, hcut, rfl⟩ |
    ⟨i, c, began, key, got, -, hi, rfl⟩
  · exact fun l hl => (h l hl).mono (Nat.le_succ _) fun _ => id
  · exact fun l hl => (h l hl).mono (Nat.le_succ _) fun _ => List.mem_cons_of_mem _
  · intro l hl
    rcases List.mem_append.mp hl with hl | hl
    · exact (h l hl).mono (Nat.le_succ _) fun _ => id
    · obtain rfl := List.mem_singleton.mp hl
      exact ⟨Nat.le_succ _, by simp, by simp, by simp, by simp⟩
  · intro l hl
    have hbegan := (h _ (List.mem_of_getElem? hi)).began_le
    rcases mem_goes hl with rfl | hl
    · rcases look_cases names y c with ⟨msg, hl⟩ | ⟨key, hkey, hl⟩ |
        ⟨key, got, -, -, hl⟩
      · rw [hl]
        exact ⟨hbegan.trans (Nat.le_succ _), by simp, by simp, by simp, by simp⟩
      · rw [hl]
        exact ⟨hbegan.trans (Nat.le_succ _), by simpa using hkey, by simp, by simp, by simp⟩
      · rw [hl]
        exact .of_returned (hbegan.trans (Nat.le_succ _))
    · exact (h l hl).mono (Nat.le_succ _) fun _ => id
  · intro l hl
    have hmem := h _ (List.mem_of_getElem? hi)
    rcases mem_goes hl with rfl | hl
    · -- what the fetch gave is as old as this step
      refine ⟨hmem.began_le.trans (Nat.le_succ _), by simp, ?_, ?_, ?_⟩
      · rintro key' got' ⟨⟩
        exact hmem.key_of_fetch key rfl
      · rintro key' got' ⟨⟩
        exact hmem.began_le
      · rintro key' got' ⟨⟩ hcut'
        exact hcut hcut'
    · exact (h l hl).mono (Nat.le_succ _) fun _ => id
  · intro l hl
    have hbegan := (h _ (List.mem_of_getElem? hi)).began_le
    rcases mem_goes hl with rfl | hl
    · exact .of_returned (hbegan.trans (Nat.le_succ _))
    · exact (h l hl).mono (Nat.le_succ _) fun _ => id

/-! ### Runs whose writes are sound -/

/-- What is in the memo may be returned to anybody. -/
def MemoSound (y : RegistrySystem) : Prop :=
  ∀ e ∈ y.cache.m, ¬ e.2.got.outcome.IsCut ∧
    ∀ began, y.refreshed e.1 = some began → began ≤ e.2.got.event

/-- What may be returned to anybody is, and no promise is broken by it. -/
theorem answersSound_goes (h : y.AnswersSound)
    (hpc : ∀ r, pc = .returned r → ∃ key got, pc = y.returns c key got ∧
      ¬ got.outcome.IsCut ∧
        (c.force = false → ∀ began, y.refreshed key = some began → began ≤ got.event)) :
    (y.goes i ⟨c, began, pc⟩).AnswersSound := by
  constructor
  · intro l hl r hr hended hcut
    rcases mem_goes hl with rfl | hl
    · obtain ⟨key, got, hret, hnot, -⟩ := hpc r hr
      obtain rfl := LookupPc.returned.inj (hr.symm.trans hret)
      exact absurd hcut hnot
    · exact h.1 l hl r hr hended hcut
  · intro l hl r hr hforce began' hbegan'
    rcases mem_goes hl with rfl | hl
    · obtain ⟨key, got, hret, -, hnew⟩ := hpc r hr
      obtain rfl := LookupPc.returned.inj (hr.symm.trans hret)
      exact hnew hforce began' hbegan'
    · exact h.2 l hl r hr hforce began' hbegan'

/-- What holds throughout a run whose writes are sound. -/
structure Sound (names : DomainNames) (y : RegistrySystem) : Prop where
  pending : ∀ l ∈ y.lookups, Pending names y l
  memo : y.MemoSound
  answers : y.AnswersSound

theorem sound_start : Sound names (start ttl now) where
  pending := by simp [start]
  memo := by simp [MemoSound, start, newRDAPCache]
  answers := by simp [AnswersSound, NoForeignEnd, NoneOutdated, start]

/-- A write that is sound leaves the memo so. -/
theorem memoSound_stores (h : y.MemoSound) (hbegan : began ≤ got.event)
    (hcut : ¬ got.outcome.IsCut)
    (hnew : c.force = false → ∀ began', y.refreshed key = some began' → began' ≤ got.event) :
    (y.stores i c began key got).MemoSound := by
  intro e he
  rcases RdapCache.mem_put he with rfl | ⟨he, hne⟩
  · refine ⟨hcut, fun began' hrefreshed => ?_⟩
    cases hforce : c.force with
    | true =>
      simp only [stores, hforce, if_true, Function.update_self, Option.some.injEq] at hrefreshed
      exact hrefreshed ▸ hbegan
    | false => exact hnew hforce began' (by simpa [stores, hforce] using hrefreshed)
  · refine ⟨(h e he).1, fun began' hrefreshed => (h e he).2 began' ?_⟩
    cases hforce : c.force with
    | true => simpa [stores, hforce, Function.update_of_ne hne] using hrefreshed
    | false => simpa [stores, hforce] using hrefreshed

theorem sound_step (h : Sound names y) (hstores : y.StoresSound act)
    (hstep : y.step names act = some y') : Sound names y' := by
  have hpending := pending_step h.pending hstep
  rcases step_cases hstep with ⟨d, -, rfl⟩ | ⟨ctx, -, rfl⟩ | ⟨c, -, rfl⟩ |
    ⟨i, c, began, -, hi, rfl⟩ | ⟨i, out, c, began, key, -, hi, hcut, rfl⟩ |
    ⟨i, c, began, key, got, rfl, hi, rfl⟩
  · exact ⟨hpending, h.memo, h.answers⟩
  · exact ⟨hpending, h.memo, h.answers⟩
  · refine ⟨hpending, h.memo, ?_, ?_⟩
    · intro l hl r hr
      rcases List.mem_append.mp hl with hl | hl
      · exact h.answers.1 l hl r hr
      · exact absurd hr (by simp [List.mem_singleton.mp hl])
    · intro l hl r hr
      rcases List.mem_append.mp hl with hl | hl
      · exact h.answers.2 l hl r hr
      · exact absurd hr (by simp [List.mem_singleton.mp hl])
  · refine ⟨hpending, h.memo, answersSound_goes h.answers fun r hr => ?_⟩
    rcases look_cases names y c with ⟨msg, hl⟩ | ⟨key, -, hl⟩ |
      ⟨key, got, -, hfresh, hl⟩
    · exact absurd (hl.symm.trans hr) (by simp)
    · exact absurd (hl.symm.trans hr) (by simp)
    · -- the memo holds nothing but what may be returned
      obtain ⟨e, hget, -, rfl⟩ := RdapCache.fresh?_eq_some_iff.mp hfresh
      have hmemo := h.memo _ (RdapCache.mem_of_get? hget)
      exact ⟨key, e.got, hl, hmemo.1, fun _ => hmemo.2⟩
  · exact ⟨hpending, h.memo, answersSound_goes h.answers (by simp)⟩
  · obtain ⟨hcut, hnew⟩ := hstores c began key got hi
    have hbegan := (h.pending _ (List.mem_of_getElem? hi)).began_le_event key got rfl
    have hanswers : (y.goes i ⟨c, began, y.returns c key got⟩).AnswersSound :=
      answersSound_goes h.answers fun r _ => ⟨key, got, rfl, hcut, hnew⟩
    exact ⟨hpending, memoSound_stores h.memo hbegan hcut hnew, hanswers⟩

/-! ### A write that is not sound -/

/-- Whoever asks right after a write is answered with it. -/
theorem run_after_stores (i : Nat) (c : LookupCall) (began : Nat) (got : Fetched)
    (c' : LookupCall) (hforce : c'.force = false)
    (hkey : cacheKey names c'.host = .ok key) :
    ∃ y', run (step names) (y.stores i c began key got) [.call c', .look y.lookups.length] =
        some y' ∧
      ⟨c', y.events + 1, (y.stores i c began key got).returns c' key got⟩ ∈ y'.lookups := by
  set y₁ := y.stores i c began key got with hy₁
  have hlen : y.lookups.length = y₁.lookups.length := by simp [hy₁, stores, goes]
  set y₂ : RegistrySystem := { y₁ with
    lookups := y₁.lookups ++ [⟨c', y₁.events, .look⟩], events := y₁.events + 1 } with hy₂
  have hlook : y₂.look names c' = y₁.returns c' key got := by
    have hfresh : y₂.cache.fresh? key y₂.now = some got := RdapCache.fresh?_put_self
    simp only [look, hkey, hforce, hfresh]
    rfl
  have hat : y₂.lookups[y₁.lookups.length]? = some ⟨c', y₁.events, .look⟩ := by simp [hy₂]
  refine ⟨y₂.goes y₁.lookups.length ⟨c', y₁.events, y₂.look names c'⟩, ?_, ?_⟩
  · simp only [run, step, Option.bind_some, hlen]
    rw [← hy₂, hat]
    rfl
  · rw [hlook]
    exact List.mem_set (by simp [hy₂]) _

/-- After a write that is not sound, a promise is broken by it or by whoever asks next. -/
theorem not_always_after_stores (hpending : ∀ l ∈ y.lookups, Pending names y l)
    (hi : y.lookups[i]? = some ⟨c, began, .store key got⟩)
    (hbad : ¬ (¬ got.outcome.IsCut ∧
      (c.force = false → ∀ began', y.refreshed key = some began' → began' ≤ got.event))) :
    ∃ c' j, ¬ Always (step names) AnswersSound (y.stores i c began key got)
      [.call c', .look j] := by
  have hmem := hpending _ (List.mem_of_getElem? hi)
  by_cases hcut : got.outcome.IsCut
  · -- somebody asks under a context that goes on
    obtain ⟨ctx, hctx⟩ := Infinite.exists_notMem_finset y.ended.toFinset
    rw [List.mem_toFinset] at hctx
    have hended : got.ctx ∈ y.ended := hmem.ended_of_cut key got rfl hcut
    obtain ⟨y', hrun, hl⟩ := run_after_stores i c began got ⟨ctx, c.host, false⟩ rfl
      (hmem.key_of_store key got rfl)
    refine ⟨⟨ctx, c.host, false⟩, y.lookups.length, fun halways => ?_⟩
    have heq : got.ctx = ctx :=
      (halways _ y' (List.prefix_refl _) hrun).1 _ hl _ rfl (decide_eq_false hctx) hcut
    exact hctx (heq ▸ hended)
  · refine ⟨c, 0, fun halways => hbad ⟨hcut, fun hforce began' hbegan' => ?_⟩⟩
    have hanswers := (halways [] _ List.nil_prefix rfl).2
    have hl : ⟨c, began, y.returns c key got⟩ ∈ (y.stores i c began key got).lookups :=
      List.mem_set (List.getElem?_eq_some_iff.mp hi).1 _
    exact hanswers _ hl _ rfl hforce began' hbegan'

theorem always_pending (acts : List RegistryAct) : Always (step names)
    (fun y => ∀ l ∈ y.lookups, Pending names y l) (start ttl now) acts := by
  have hall : Meets (step names) (fun _ _ => True) (start ttl now) acts := fun _ _ _ _ _ => trivial
  exact always_of_meets sound_start.pending (fun _ _ _ h _ hstep => pending_step h hstep) hall

/-- Asking the memo writes nothing. -/
theorem meets_storesSound_look : Meets (step names) StoresSound y [.call c, .look i] :=
  meets_cons.mpr ⟨trivial, fun _ _ => meets_cons.mpr ⟨trivial, fun _ _ => meets_nil⟩⟩

/-! ### Two runs -/

/-- Names that are registered as they stand. -/
def asTheyStand : DomainNames where
  toLower := id
  effectiveTLDPlusOne := .ok
  quote := String.ofList

/-- A tab is closed while the registry is asked, and somebody else asks. -/
def closedTab : List RegistryAct :=
  [.call ⟨0, "a.de", false⟩, .look 0, .endContext 0, .fetch 0 (.cut "context canceled"), .store 0,
    .call ⟨1, "a.de", false⟩, .look 1]

/-- A domain is refreshed while a slow lookup has its answer, which is then put into the memo. -/
def overtaken : List RegistryAct :=
  [.call ⟨0, "a.de", false⟩, .look 0,
    .fetch 0 (.answered (.ok ⟨"a.de", [], 1700000000, 0, [], []⟩)),
    .call ⟨1, "a.de", true⟩, .look 1,
    .fetch 1 (.answered (.ok ⟨"a.de", [], 1800000000, 0, [], []⟩)),
    .store 1, .store 0, .call ⟨2, "a.de", false⟩, .look 2]

end RegistrySystem

open RegistrySystem

/-- Exactly in the runs whose writes are sound no promise is broken, however the memo is asked
at any time of the run. -/
theorem registryAnswers_sound_iff (names : DomainNames) (ttl now : Int)
    (acts : List RegistryAct) :
    Meets (step names) StoresSound (start ttl now) acts ↔
      ∀ pre, pre <+: acts → ∀ c i, Always (step names) AnswersSound (start ttl now)
        (pre ++ [.call c, .look i]) := by
  constructor
  · rintro hmeets pre ⟨post, rfl⟩ c i
    have hall : Meets (step names) StoresSound (start ttl now) (pre ++ [.call c, .look i]) :=
      meets_append.mpr ⟨(meets_append.mp hmeets).1, fun _ _ => meets_storesSound_look⟩
    have hsound : Always (step names) (Sound names) (start ttl now)
        (pre ++ [.call c, .look i]) :=
      always_of_meets sound_start (fun _ _ _ h hs hstep => sound_step h hs hstep) hall
    exact hsound.mono fun _ h => h.answers
  · intro halways pre act y hpre hrun
    cases act with
    | store i =>
      intro c began key got hi
      by_contra hbad
      obtain ⟨c', j, hnot⟩ := not_always_after_stores
        (always_pending pre pre y (List.prefix_refl _) hrun) hi hbad
      -- the run up to the write, and whoever asks after it
      have hstores : run (step names) (start ttl now) (pre ++ [.store i]) =
          some (y.stores i c began key got) := by
        simp [run_append, hrun, run, step, hi]
      exact hnot ((always_append.mp (halways _ hpre c' j)).2 _ hstores)
    | _ => trivial

/-- The second caller is told that a context was canceled that is not its own, and the third one
is told the date from before the refresh. -/
theorem registryAnswers_unsound :
    ¬ Always (step asTheyStand) NoForeignEnd (start 0 0) closedTab ∧
      ¬ Always (step asTheyStand) NoneOutdated (start 0 0) overtaken := by
  constructor
  · intro h
    have hend := h closedTab _ (List.prefix_refl _) rfl
    have hctx := hend _ (List.mem_of_getElem? (i := 1) rfl) _ rfl rfl trivial
    exact absurd hctx (by decide)
  · intro h
    have hend := h overtaken _ (List.prefix_refl _) rfl
    have hevent := hend _ (List.mem_of_getElem? (i := 2) rfl) _ rfl rfl 3 rfl
    exact absurd hevent (by decide)

end CertGuard
