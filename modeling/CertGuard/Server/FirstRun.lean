import CertGuard.Server.Accounts

/-!
# The first account

While there are no users anybody may create the first one. `handleSetup` counts them, hashes
the password and inserts; two requests that both count none both insert.

## Main definitions

* `SetupAct`, `setupStep` — requests to set up the instance, in any order of their statements
* `SetUpOnce` — at most one account, and nobody else may create one
* `overtaken` — the requests since whose count an account was created
* `NotOvertaken` — a request that creates an account is not one of these

## Main results

* `SetupPc.next_cases` — what a statement of a request to set up does
* `set_up_once_iff` — a run creates one account at most exactly if none of its requests is
  overtaken between its count and its `INSERT`
* `two_first_admins` — and a run that creates two
-/

namespace CertGuard

open Transition

/-- A request to set up the instance arrives, or takes its next statement. -/
inductive SetupAct
  | arrive (email password : String)
  | step (i : Nat) (t : Turn)

/-- As an action on accounts. -/
def SetupAct.act : SetupAct → AccountAct
  | arrive email password => .setup email password
  | step i t => .step i t

/-- Takes an action. -/
def setupStep (cfg : AuthConfig) (y : Accounts) (a : SetupAct) : Option Accounts :=
  y.step cfg a.act

/-- At most one account was created, and once there is one a request is refused. -/
def SetUpOnce (cfg : AuthConfig) (y : Accounts) : Prop :=
  y.store.countUsers ≤ 1 ∧ (0 < y.store.countUsers → ∀ t email password,
    SetupPc.next cfg y.store t (.count email password) = some (.nothing, .done))

/-- The requests since whose count of the users an account was created. -/
def overtaken (cfg : AuthConfig) (late : Nat → Bool) (y : Accounts) (a : SetupAct) : Nat → Bool :=
  match a with
  | .arrive .. => late
  | .step i _ =>
    match y.effect cfg a.act with
    | .createUser _ => fun _ => true
    | _ =>
      match y.requests[i]? with
      | some (.setup (.count ..)) => Function.update late i false
      | _ => late

/-- Between its own count and its `INSERT` no other account was created. -/
def NotOvertaken (cfg : AuthConfig) (v : Accounts × (Nat → Bool)) (a : SetupAct) : Prop :=
  ∀ i t row, a = .step i t → v.1.effect cfg a.act = .createUser row → v.2 i = false

variable {cfg : AuthConfig} {s : Store} {y y' : Accounts} {a : SetupAct} {t : Turn}
variable {late : Nat → Bool} {pc pc' : SetupPc} {eff : AccountEffect}

/-- Nobody sets up an instance that has a user. -/
theorem setUpOnce_iff : SetUpOnce cfg y ↔ y.store.countUsers ≤ 1 :=
  and_iff_left fun hcount _ _ _ => if_pos (Or.inr (Or.inl hcount))

/-- A statement comes to an `INSERT` having counted no users, or it is one that takes effect, or
it changes nothing about how many users there are. -/
theorem SetupPc.next_cases (h : pc.next cfg s t = some (eff, pc')) :
    (∃ email hash password, pc = .count email password ∧ eff = .nothing ∧
        pc' = .insert email hash ∧ s.countUsers = 0) ∨
      (∃ row, eff = .createUser row ∧ s.TakesUser row ∧ ∃ email hash, pc = .insert email hash) ∨
        (∀ row, eff ≠ .createUser row) ∧ (∀ email hash, pc' ≠ .insert email hash) ∧
          (eff.apply s).countUsers = s.countUsers := by
  cases pc with
  | count email password =>
    simp only [SetupPc.next] at h
    split_ifs at h with hrefused
    · obtain ⟨rfl, rfl⟩ := Prod.mk.inj (Option.some.inj h)
      exact Or.inr (Or.inr ⟨by simp, by simp, rfl⟩)
    · obtain ⟨-, hcount, -⟩ := not_or.mp hrefused |>.imp_right not_or.mp
      cases hhash : hashPassword cfg password t.salt with
      | none =>
        rw [hhash] at h
        obtain ⟨rfl, rfl⟩ := Prod.mk.inj (Option.some.inj h)
        exact Or.inr (Or.inr ⟨by simp, by simp, rfl⟩)
      | some hash =>
        rw [hhash] at h
        obtain ⟨rfl, rfl⟩ := Prod.mk.inj (Option.some.inj h)
        exact Or.inl ⟨email, hash, password, rfl, rfl, rfl, Nat.eq_zero_of_not_pos hcount⟩
  | insert email hash =>
    simp only [SetupPc.next] at h
    split_ifs at h with htakes
    · obtain ⟨rfl, rfl⟩ := Prod.mk.inj (Option.some.inj h)
      exact Or.inr (Or.inl ⟨_, rfl, htakes.2, email, hash, rfl⟩)
    · obtain ⟨rfl, rfl⟩ := Prod.mk.inj (Option.some.inj h)
      exact Or.inr (Or.inr ⟨by simp, by simp, rfl⟩)
  | read id =>
    simp only [SetupPc.next] at h
    split at h <;> obtain ⟨rfl, rfl⟩ := Prod.mk.inj (Option.some.inj h) <;>
      exact Or.inr (Or.inr ⟨by simp, by simp, rfl⟩)
  | start user =>
    obtain ⟨rfl, rfl⟩ := Prod.mk.inj (Option.some.inj h)
    refine Or.inr (Or.inr ⟨by split_ifs <;> simp, by simp, ?_⟩)
    -- a session is no user
    split_ifs
    · rw [AccountEffect.apply, Store.createSession]
      split_ifs <;> rfl
    · rfl
  | done => exact absurd h (by simp [SetupPc.next])

theorem countUsers_createUser {row : UserRow} (htakes : s.TakesUser row) :
    (s.createUser row).countUsers = s.countUsers + 1 := by
  rw [Store.createUser, if_pos htakes, Store.countUsers, Store.countUsers, Table.insert,
    List.length_append, List.length_singleton]

theorem overtaken_of_ne {i j : Nat} (hcreate : ∀ row, y.effect cfg (.step i t) ≠ .createUser row)
    (hij : j ≠ i) : overtaken cfg late y (.step i t) j = late j := by
  have hcases : overtaken cfg late y (.step i t) = late ∨
      overtaken cfg late y (.step i t) = Function.update late i false := by
    unfold overtaken
    dsimp only [SetupAct.act]
    cases heff : y.effect cfg (.step i t) with
    | createUser row => exact absurd heff (hcreate row)
    | _ =>
      dsimp only
      split
      · exact Or.inr rfl
      · exact Or.inl rfl
  rcases hcases with hsame | hcounts
  · rw [hsame]
  · rw [hcounts, Function.update_of_ne hij]

/-- All requests are to set up the instance, and one that comes to its `INSERT` was overtaken
exactly if there are users. -/
structure SetupsCounted (v : Accounts × (Nat → Bool)) : Prop where
  setups : ∀ (i : Nat) (r : Request), v.1.requests[i]? = some r → ∃ pc, r = .setup pc
  fresh : ∀ (i : Nat) email hash, v.1.requests[i]? = some (.setup (.insert email hash)) →
    (v.2 i = false ↔ v.1.store.countUsers = 0)

/-- A request to set up arrives, or takes a statement. -/
theorem setupStep_cases (hcounted : SetupsCounted (y, late)) (hstep : setupStep cfg y a = some y') :
    (∃ email password, a = .arrive email password ∧
        y' = { y with requests := y.requests ++ [.setup (.count email password)] }) ∨
      ∃ i t pc eff pc', a = .step i t ∧ y.requests[i]? = some (.setup pc) ∧
        pc.next cfg y.store t = some (eff, pc') ∧ y.effect cfg a.act = eff ∧
        y' = ⟨eff.apply y.store, y.requests.set i (.setup pc')⟩ := by
  rcases Accounts.step_cases hstep with
    ⟨r, harrival, -, rfl⟩ | ⟨i, t, r, eff, r', hact, hr, hnext, heff, rfl⟩
  · cases a with
    | arrive email password =>
      obtain rfl := Option.some.inj harrival
      exact Or.inl ⟨email, password, rfl, rfl⟩
    | step i t => exact absurd harrival (by simp [SetupAct.act, AccountAct.arrival])
  · cases a with
    | arrive email password => exact absurd hact (by simp [SetupAct.act])
    | step i' t' =>
      obtain ⟨rfl, rfl⟩ := AccountAct.step.inj hact
      obtain ⟨pc, rfl⟩ := hcounted.setups i' r hr
      obtain ⟨m, hm, heq⟩ := Option.map_eq_some_iff.mp hnext
      obtain ⟨rfl, rfl⟩ := Prod.mk.inj heq
      exact Or.inr ⟨i', t', pc, m.1, m.2, rfl, hr, hm, heff, rfl⟩

theorem counted_step (hcounted : SetupsCounted (y, late)) (hstep : setupStep cfg y a = some y') :
    SetupsCounted (y', overtaken cfg late y a) := by
  rcases setupStep_cases hcounted hstep with
    ⟨email, password, rfl, rfl⟩ | ⟨i, t, pc, eff, pc', rfl, hr, hnext, heff, rfl⟩
  · -- the one that arrives has not counted yet
    have hcases : ∀ (j : Nat) (r : Request),
        (y.requests ++ [Request.setup (.count email password)])[j]? = some r →
        y.requests[j]? = some r ∨ r = .setup (.count email password) := by
      intro j r hj
      rcases Accounts.request_cases hstep hj with ⟨hold, -⟩ | harrival | ⟨t, -, hact, -⟩
      · exact Or.inl hold
      · exact Or.inr (Option.some.inj harrival).symm
      · exact absurd hact (by simp [SetupAct.act])
    refine ⟨fun j r hj => ?_, fun j email' hash hj => ?_⟩
    · rcases hcases j r hj with hold | rfl
      · exact hcounted.setups j r hold
      · exact ⟨_, rfl⟩
    · rcases hcases j _ hj with hold | hnew
      · exact hcounted.fresh j email' hash hold
      · exact absurd hnew (by simp)
  · have hcases : ∀ (j : Nat) (r : Request), (y.requests.set i (Request.setup pc'))[j]? = some r →
        j = i ∧ r = .setup pc' ∨ j ≠ i ∧ y.requests[j]? = some r := by
      intro j r hj
      by_cases hij : j = i
      · subst hij
        rw [List.getElem?_set_self (List.getElem?_eq_some_iff.mp hr).1] at hj
        exact Or.inl ⟨rfl, (Option.some.inj hj).symm⟩
      · rw [List.getElem?_set_ne (Ne.symm hij)] at hj
        exact Or.inr ⟨hij, hj⟩
    refine ⟨fun j r hj => ?_, fun j email hash hj => ?_⟩
    · rcases hcases j r hj with ⟨-, rfl⟩ | ⟨-, hold⟩
      · exact ⟨pc', rfl⟩
      · exact hcounted.setups j r hold
    dsimp only
    rcases SetupPc.next_cases hnext with ⟨email', hash', password, rfl, rfl, rfl, hcount⟩ |
      ⟨row, rfl, htakes, email', hash', rfl⟩ | ⟨hcreate, hnot, hsame⟩
    · -- it has counted, and found none
      have hlate : overtaken cfg late y (.step i t) = Function.update late i false := by
        simp only [overtaken, heff, hr]
      rw [hlate]
      rcases hcases j _ hj with ⟨rfl, -⟩ | ⟨hij, hold⟩
      · rw [Function.update_self]
        exact iff_of_true rfl hcount
      · rw [Function.update_of_ne hij]
        exact hcounted.fresh j email hash hold
    · -- whoever has counted by now is overtaken
      have hlate : overtaken cfg late y (.step i t) = fun _ => true := by
        simp only [overtaken, heff]
      have hcount : (AccountEffect.apply y.store (.createUser row)).countUsers =
          y.store.countUsers + 1 := countUsers_createUser htakes
      rw [hlate, hcount]
      exact iff_of_false (by simp) (Nat.succ_ne_zero _)
    · -- nobody else is concerned
      rw [hsame]
      rcases hcases j _ hj with ⟨-, hnew⟩ | ⟨hij, hold⟩
      · exact absurd (Request.setup.inj hnew).symm (hnot email hash)
      · rw [overtaken_of_ne (fun row => heff ▸ hcreate row) hij]
        exact hcounted.fresh j email hash hold

/-- A request keeps the account at one exactly if it was not overtaken. -/
theorem setUpOnce_step (hcounted : SetupsCounted (y, late)) (honce : SetUpOnce cfg y)
    (hstep : setupStep cfg y a = some y') :
    SetUpOnce cfg y' ↔ NotOvertaken cfg (y, late) a := by
  rw [setUpOnce_iff] at honce ⊢
  rcases setupStep_cases hcounted hstep with
    ⟨email, password, rfl, rfl⟩ | ⟨i, t, pc, eff, pc', rfl, hr, hnext, heff, rfl⟩
  · exact iff_of_true honce fun _ _ _ hact => absurd hact (by simp)
  · have hother : (∀ row, eff ≠ .createUser row) →
        NotOvertaken cfg (y, late) (.step i t) := fun hcreate _ _ row _ hrow =>
      absurd (heff.symm.trans hrow) (hcreate row)
    rcases SetupPc.next_cases hnext with ⟨email, hash, password, -, rfl, -, -⟩ |
      ⟨row, rfl, htakes, email, hash, rfl⟩ | ⟨hcreate, -, hsame⟩
    · exact iff_of_true honce (hother (by simp))
    · -- it counted none, and there is none exactly if it was not overtaken
      have hcount : (AccountEffect.apply y.store (.createUser row)).countUsers =
          y.store.countUsers + 1 := countUsers_createUser htakes
      dsimp only
      rw [hcount, show y.store.countUsers + 1 ≤ 1 ↔ y.store.countUsers = 0 by omega,
        ← hcounted.fresh i email hash hr]
      constructor
      · rintro hlate i' t' row' hact -
        obtain ⟨rfl, -⟩ := SetupAct.step.inj hact
        exact hlate
      · exact fun hnot => hnot i t row rfl heff
    · dsimp only
      rw [hsame]
      exact iff_of_true honce (hother hcreate)

/-- Over any number of requests to set up an instance without users and any interleaving of
their statements, some of which may fail: at most one creates an account, and once it has all
that ask are refused, exactly if for no request that creates an account another was created
between its own count of the users and its `INSERT`. -/
theorem set_up_once_iff (cfg : AuthConfig) (s : Store) (acts : List SetupAct)
    (hempty : s.countUsers = 0) :
    Always (setupStep cfg) (SetUpOnce cfg) ⟨s, []⟩ acts ↔
      Meets (watch (setupStep cfg) (overtaken cfg)) (NotOvertaken cfg) (⟨s, []⟩, fun _ => false)
        acts := by
  have hstart : SetUpOnce cfg ⟨s, []⟩ := setUpOnce_iff.mpr (hempty.trans_le (Nat.zero_le 1))
  have hcounted : SetupsCounted (⟨s, []⟩, fun _ => false) :=
    ⟨fun i r hr => absurd hr (by simp), fun i email hash hr => absurd hr (by simp)⟩
  rw [← always_watch (overtaken cfg) fun _ => false]
  refine always_iff_meets_of_inv SetupsCounted hcounted hstart ?_ ?_ ?_
  · rintro ⟨y, late⟩ a ⟨y', late'⟩ hcounted - hstep -
    obtain ⟨y'', hstep', heq⟩ := Option.map_eq_some_iff.mp hstep
    obtain ⟨rfl, rfl⟩ := Prod.mk.inj heq
    exact counted_step hcounted hstep'
  · rintro ⟨y, late⟩ a ⟨y', late'⟩ hcounted honce hstep
    obtain ⟨y'', hstep', heq⟩ := Option.map_eq_some_iff.mp hstep
    obtain ⟨rfl, rfl⟩ := Prod.mk.inj heq
    exact setUpOnce_step hcounted honce hstep'
  · rintro ⟨y, late⟩ a hrefused i t row rfl hrow
    have hnone := Accounts.effect_of_refused (Option.map_eq_none_iff.mp hrefused)
    exact absurd (hnone.symm.trans hrow) (by simp)

/-- Two requests, the second of which counts once the first has inserted. -/
def oneAfterTheOther : List SetupAct :=
  [.arrive "ann@example.org" "long enough", .arrive "bob@example.org" "long enough",
    .step 0 {}, .step 0 {}, .step 1 {}]

theorem set_up_once_demo :
    Always (setupStep demoConfig) (SetUpOnce demoConfig) ⟨{}, []⟩ oneAfterTheOther := by
  refine (set_up_once_iff demoConfig {} _ rfl).mpr ?_
  have hnone : ∀ {v : Accounts × (Nat → Bool)} {a : SetupAct},
      v.1.effect demoConfig a.act = .nothing → NotOvertaken demoConfig v a :=
    fun h _ _ _ _ hrow => absurd (h.symm.trans hrow) (by simp)
  refine meets_cons.mpr ⟨hnone rfl, fun v hv => ?_⟩
  obtain rfl := Option.some.inj hv
  refine meets_cons.mpr ⟨hnone rfl, fun v hv => ?_⟩
  obtain rfl := Option.some.inj hv
  refine meets_cons.mpr ⟨hnone rfl, fun v hv => ?_⟩
  obtain rfl := Option.some.inj hv
  refine meets_cons.mpr ⟨?_, fun v hv => ?_⟩
  · -- the first inserts, with nobody in between
    rintro i t row hact -
    obtain ⟨rfl, -⟩ := SetupAct.step.inj hact
    rfl
  obtain rfl := Option.some.inj hv
  exact meets_cons.mpr ⟨hnone rfl, fun v hv => meets_nil⟩

/-- Two requests that count the users before either inserts. -/
def raceToSetUp : List SetupAct :=
  [.arrive "ann@example.org" "long enough", .arrive "bob@example.org" "long enough",
    .step 0 {}, .step 1 {}, .step 0 {}, .step 1 {}]

/-- Both become admins. -/
theorem two_first_admins : ¬ ∀ cfg s acts, s.countUsers = 0 →
    Always (setupStep cfg) (SetUpOnce cfg) ⟨s, []⟩ acts := by
  intro hall
  have hend : ((run (setupStep demoConfig) ⟨{}, []⟩ raceToSetUp).map fun y =>
      y.store.countUsers) = some 2 := by decide
  obtain ⟨y, hrun, hcount⟩ := Option.map_eq_some_iff.mp hend
  obtain ⟨hle, -⟩ := hall demoConfig {} raceToSetUp rfl raceToSetUp y (List.prefix_refl _) hrun
  omega

end CertGuard
