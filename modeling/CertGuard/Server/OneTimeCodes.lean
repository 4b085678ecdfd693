import Mathlib.Logic.Function.Basic
import CertGuard.Server.Accounts

/-!
# One-time codes are used once

`handleLogin` consumes the step of a code: the statement raises the last step of the account
and takes no step at or below it. `handle2FAEnable` and `handle2FADisable` only compare, and
`handle2FAEnable`, which may be asked for again, sets the last step back to 0.

## Main definitions

* `CodeLog` — the steps accepted for each secret of a user, and the highest last step
* `OneTime` — no step was accepted twice, and the last step never fell
* `NotSpent` — what a statement that accepts a code must find

## Main results

* `one_time_iff` — the codes of a run are one-time exactly if its statements find this
* `code_used_twice` — and a run that uses one twice
-/

namespace CertGuard

open Transition

/-- The secrets of a user are numbered in the order they are provisioned, replaced or
cleared; an accepted step goes with the number of its secret. -/
structure CodeLog where
  number : Int → Nat
  accepted : Int → List (Nat × Int)
  /-- The steps accepted by `handle2FAEnable`. -/
  enabled : Int → List (Nat × Int)
  /-- The highest last step since the secret was provisioned. -/
  floor : Int → Int

namespace CodeLog

/-- Nothing was accepted yet. -/
def start (s : Store) : CodeLog where
  number _ := 0
  accepted _ := []
  enabled _ := []
  floor id := (s.users.get? id).elim 0 UserRow.totpLastStep

variable (g : CodeLog)

/-- A step of a user is accepted. -/
def accept (id : Int) (p : Nat × Int) : CodeLog :=
  { g with accepted := Function.update g.accepted id (p :: g.accepted id) }

/-- `handle2FAEnable` accepts a step of the secret there is. -/
def enable (id step : Int) : CodeLog :=
  { g.accept id (g.number id, step) with
    enabled := Function.update g.enabled id ((g.number id, step) :: g.enabled id) }

/-- The last step of a user is set. -/
def raise (id step : Int) : CodeLog :=
  { g with floor := Function.update g.floor id (max (g.floor id) step) }

/-- A user has another secret, or none, from now on. -/
def renew (id : Int) : CodeLog :=
  { g with
    number := Function.update g.number id (g.number id + 1)
    floor := Function.update g.floor id 0 }

end CodeLog

/-- The secret a user has now. -/
def Store.HasSecret (s : Store) (id : Int) (secret : String) : Prop :=
  (s.users.get? id).map UserRow.totpSecret = some secret

instance (s : Store) (id : Int) (secret : String) : Decidable (s.HasSecret id secret) :=
  inferInstanceAs (Decidable (_ = _))

namespace CodeLog

/-- The effect of a statement is recorded. A code counts for the secret the user has. -/
def noteNext (g : CodeLog) (s : Store) : AccountEffect → Request → CodeLog
  | .consumeTOTPStep id step, .login (.consume user _) =>
    if s.HasSecret id user.totpSecret then (g.raise id step).accept id (g.number id, step)
    else g.raise id step
  | .setUserTOTP id _ _, .authed (.setup2FA _) => g.renew id
  | .setUserTOTP id secret _, .authed (.enable2FA _ step) =>
    (if s.HasSecret id secret then g.raise id 0 else g.renew id).enable id step
  | .setUserTOTP id _ _, .authed (.disable2FA user step) =>
    if s.HasSecret id user.totpSecret then (g.renew id).accept id (g.number id, step)
    else g.renew id
  | .createUser _, _ => g.renew s.users.nextKey
  | _, _ => g

/-- Keeps the log of a run. -/
def note (cfg : AuthConfig) (g : CodeLog) (y : Accounts) (act : AccountAct) : CodeLog :=
  match act with
  | .step i _ => y.requests[i]?.elim g (g.noteNext y.store (y.effect cfg act))
  | _ => g

end CodeLog

/-- Accounts with the log. -/
abbrev codeStep (cfg : AuthConfig) :
    Accounts × CodeLog → AccountAct → Option (Accounts × CodeLog) :=
  watch (Accounts.step cfg) (CodeLog.note cfg)

/-- No step of a secret was accepted twice, and the last step of a user never fell while the
secret was the same. -/
structure OneTime (s : Store) (g : CodeLog) : Prop where
  once : ∀ id, (g.accepted id).Nodup
  kept : ∀ id row, s.users.get? id = some row → g.floor id ≤ row.totpLastStep

/-- What a statement that accepts a code of the secret there is must find: in a login, that
`handle2FAEnable` did not accept the step; in the other two, that nobody did; and in
`handle2FAEnable` a last step that it does not lower. -/
def Spendable (s : Store) (g : CodeLog) : AccountEffect → Request → Prop
  | .consumeTOTPStep id step, .login (.consume user _) =>
    s.HasSecret id user.totpSecret → (g.number id, step) ∉ g.enabled id
  | .setUserTOTP id secret _, .authed (.enable2FA _ step) =>
    s.HasSecret id secret → (g.number id, step) ∉ g.accepted id ∧
      ∀ row, s.users.get? id = some row → row.totpLastStep ≤ 0
  | .setUserTOTP id _ _, .authed (.disable2FA user step) =>
    s.HasSecret id user.totpSecret → (g.number id, step) ∉ g.accepted id
  | _, _ => True

/-- The statement of an action finds that its code may be spent. -/
def NotSpent (cfg : AuthConfig) (w : Accounts × CodeLog) (act : AccountAct) : Prop :=
  ∀ i t r, act = .step i t → w.1.requests[i]? = some r →
    Spendable w.1.store w.2 (w.1.effect cfg act) r

/-- What else holds as long as codes are one-time: a step accepted for the secret there is was
accepted by `handle2FAEnable`, or is not above the last step. -/
structure Recorded (s : Store) (g : CodeLog) : Prop where
  numbered : ∀ id p, p ∈ g.accepted id → p.1 ≤ g.number id
  subset : ∀ id, g.enabled id ⊆ g.accepted id
  below : ∀ id row step, s.users.get? id = some row → (g.number id, step) ∈ g.accepted id →
    (g.number id, step) ∈ g.enabled id ∨ step ≤ row.totpLastStep
  reached : ∀ id row, s.users.get? id = some row → row.totpLastStep ≤ g.floor id

variable {cfg : AuthConfig} {s s' : Store} {g g' : CodeLog} {w w' : Accounts × CodeLog}
variable {act : AccountAct} {y y' : Accounts} {id step : Int} {row : UserRow} {secret : String}

theorem recorded_start (s : Store) : Recorded s (CodeLog.start s) where
  numbered id p hp := by simp [CodeLog.start] at hp
  subset id := List.Subset.refl _
  below id row step _ hp := by simp [CodeLog.start] at hp
  reached id row hrow := by simp [CodeLog.start, hrow]

theorem oneTime_start (s : Store) : OneTime s (CodeLog.start s) where
  once id := List.nodup_nil
  kept id row hrow := by simp [CodeLog.start, hrow]

/-! ### Last steps -/

/-- Every user has the last step it had, but for one, whose last step is set. -/
def LastSet (s s' : Store) (id last : Int) : Prop :=
  ∀ id' row', s'.users.get? id' = some row' → id' = id ∧ row'.totpLastStep = last ∨
    id' ≠ id ∧ ∃ row, s.users.get? id' = some row ∧ row'.totpLastStep = row.totpLastStep

/-- Every user has the last step it had. -/
def LastKept (s s' : Store) : Prop :=
  ∀ id row', s'.users.get? id = some row' →
    ∃ row, s.users.get? id = some row ∧ row'.totpLastStep = row.totpLastStep

theorem lastKept_self : LastKept s s := fun _ row hrow => ⟨row, hrow, rfl⟩

theorem lastSet_setUserTOTP (enabled : Bool) :
    LastSet s (s.setUserTOTP id secret enabled) id 0 := by
  intro id' row' hrow'
  rw [Store.setUserTOTP, Table.get?_modify] at hrow'
  split_ifs at hrow' with hid
  · obtain ⟨row, -, rfl⟩ := Option.map_eq_some_iff.mp hrow'
    exact Or.inl ⟨hid, rfl⟩
  · exact Or.inr ⟨hid, row', hrow', rfl⟩

theorem lastSet_consumeTOTPStep (hfresh : s.FreshStep id step) :
    LastSet s (s.consumeTOTPStep id step) id step := by
  obtain ⟨row, hrow, hlt⟩ := hfresh
  intro id' row' hrow'
  rw [Store.consumeTOTPStep, Table.get?_modify] at hrow'
  split_ifs at hrow' with hid
  · rw [hid, hrow, Option.map_some, if_pos hlt] at hrow'
    exact Or.inl ⟨hid, by rw [← Option.some.inj hrow']⟩
  · exact Or.inr ⟨hid, row', hrow', rfl⟩

theorem lastSet_createUser (hlast : row.totpLastStep = 0) :
    LastSet s (s.createUser row) s.users.nextKey 0 := by
  intro id' row' hrow'
  have hnone : s.users.get? s.users.nextKey = none := Table.get?_nextKey
  rw [Store.createUser] at hrow'
  split_ifs at hrow' with htakes
  · rw [Table.get?_insert] at hrow'
    split_ifs at hrow' with hid
    · exact Or.inl ⟨hid, by rw [← Option.some.inj hrow', hlast]⟩
    · exact Or.inr ⟨hid, row', hrow', rfl⟩
  · refine Or.inr ⟨fun hid => ?_, row', hrow', rfl⟩
    rw [hid, hnone] at hrow'
    exact absurd hrow' (by simp)

/-! ### What is recorded -/

theorem Recorded.congr (hrec : Recorded s g) (hkept : LastKept s s') : Recorded s' g where
  numbered := hrec.numbered
  subset := hrec.subset
  below id row' step hrow' hmem := by
    obtain ⟨row, hrow, hlast⟩ := hkept id row' hrow'
    exact hlast ▸ hrec.below id row step hrow hmem
  reached id row' hrow' := by
    obtain ⟨row, hrow, hlast⟩ := hkept id row' hrow'
    exact hlast ▸ hrec.reached id row hrow

theorem OneTime.congr (h : OneTime s g) (hkept : LastKept s s') : OneTime s' g where
  once := h.once
  kept id row' hrow' := by
    obtain ⟨row, hrow, hlast⟩ := hkept id row' hrow'
    exact hlast ▸ h.kept id row hrow

/-- A user has another secret from now on. -/
theorem Recorded.renew (hrec : Recorded s g) (hset : LastSet s s' id 0) :
    Recorded s' (g.renew id) where
  numbered id' p hp := by
    have hle := hrec.numbered id' p hp
    by_cases hid : id' = id
    · subst hid
      simp only [CodeLog.renew, Function.update_self]
      omega
    · simpa only [CodeLog.renew, Function.update_of_ne hid] using hle
  subset := hrec.subset
  below id' row' step hrow' hmem := by
    rcases hset id' row' hrow' with ⟨rfl, -⟩ | ⟨hid, row, hrow, hlast⟩
    · -- no step goes with the new number
      have hle := hrec.numbered id' _ hmem
      simp only [CodeLog.renew, Function.update_self] at hle
      omega
    · simp only [CodeLog.renew, Function.update_of_ne hid] at hmem ⊢
      exact hlast ▸ hrec.below id' row step hrow hmem
  reached id' row' hrow' := by
    rcases hset id' row' hrow' with ⟨rfl, hlast⟩ | ⟨hid, row, hrow, hlast⟩
    · simp only [CodeLog.renew, Function.update_self, hlast, le_refl]
    · simpa only [CodeLog.renew, Function.update_of_ne hid, hlast] using hrec.reached id' row hrow

theorem OneTime.renew (h : OneTime s g) (hset : LastSet s s' id 0) : OneTime s' (g.renew id) where
  once := h.once
  kept id' row' hrow' := by
    rcases hset id' row' hrow' with ⟨rfl, hlast⟩ | ⟨hid, row, hrow, hlast⟩
    · simp only [CodeLog.renew, Function.update_self, hlast, le_refl]
    · simpa only [CodeLog.renew, Function.update_of_ne hid, hlast] using h.kept id' row hrow

theorem CodeLog.mem_accepted_accept {id' : Int} {p q : Nat × Int} :
    q ∈ (g.accept id p).accepted id' ↔ (id' = id ∧ q = p) ∨ q ∈ g.accepted id' := by
  by_cases hid : id' = id
  · subst hid
    simp only [CodeLog.accept, Function.update_self, List.mem_cons, true_and]
  · simp only [CodeLog.accept, Function.update_of_ne hid, hid, false_and, false_or]

theorem CodeLog.mem_accepted_enable {id' : Int} {q : Nat × Int} :
    q ∈ (g.enable id step).accepted id' ↔
      (id' = id ∧ q = (g.number id, step)) ∨ q ∈ g.accepted id' :=
  mem_accepted_accept

theorem CodeLog.mem_enabled_enable {id' : Int} {q : Nat × Int} :
    q ∈ (g.enable id step).enabled id' ↔
      (id' = id ∧ q = (g.number id, step)) ∨ q ∈ g.enabled id' := by
  by_cases hid : id' = id
  · subst hid
    simp only [CodeLog.enable, Function.update_self, List.mem_cons, true_and]
  · simp only [CodeLog.enable, Function.update_of_ne hid, hid, false_and, false_or]

/-- A step is accepted that the last step has reached, or that is of an earlier secret. -/
theorem Recorded.accept (hrec : Recorded s g) {p : Nat × Int} (hle : p.1 ≤ g.number id)
    (hp : p.1 = g.number id → ∀ row, s.users.get? id = some row → p.2 ≤ row.totpLastStep) :
    Recorded s (g.accept id p) where
  numbered id' q hq := by
    rcases CodeLog.mem_accepted_accept.mp hq with ⟨rfl, rfl⟩ | hq
    · exact hle
    · exact hrec.numbered id' q hq
  subset id' q hq := CodeLog.mem_accepted_accept.mpr (Or.inr (hrec.subset id' hq))
  below id' row step hrow hmem := by
    rcases CodeLog.mem_accepted_accept.mp hmem with ⟨rfl, heq⟩ | hmem
    · have hreached := hp (congrArg Prod.fst heq).symm row hrow
      exact Or.inr ((congrArg Prod.snd heq).trans_le hreached)
    · exact hrec.below id' row step hrow hmem
  reached := hrec.reached

/-- A step that `handle2FAEnable` accepts may be above the last step. -/
theorem Recorded.enable (hrec : Recorded s g) : Recorded s (g.enable id step) where
  numbered id' q hq := by
    rcases CodeLog.mem_accepted_enable.mp hq with ⟨rfl, rfl⟩ | hq
    · exact le_rfl
    · exact hrec.numbered id' q hq
  subset id' q hq := CodeLog.mem_accepted_enable.mpr
    ((CodeLog.mem_enabled_enable.mp hq).imp_right fun hq => hrec.subset id' hq)
  below id' row step' hrow hmem := by
    rcases CodeLog.mem_accepted_enable.mp hmem with hnew | hmem
    · exact Or.inl (CodeLog.mem_enabled_enable.mpr (Or.inl hnew))
    · exact (hrec.below id' row step' hrow hmem).imp_left fun hold =>
        CodeLog.mem_enabled_enable.mpr (Or.inr hold)
  reached := hrec.reached

/-- The last step of a user is set, not below what was accepted but by `handle2FAEnable`. -/
theorem Recorded.raise (hrec : Recorded s g) {last : Int} (hset : LastSet s s' id last)
    (hlast : ∀ row, s.users.get? id = some row → row.totpLastStep ≤ last)
    (hthere : (s'.users.get? id).isSome → (s.users.get? id).isSome) :
    Recorded s' (g.raise id last) where
  numbered := hrec.numbered
  subset := hrec.subset
  below id' row' step hrow' hmem := by
    rcases hset id' row' hrow' with ⟨rfl, hrow⟩ | ⟨hid, row, hrow, hkept⟩
    · obtain ⟨row, hold⟩ := Option.isSome_iff_exists.mp (hthere (by simp [hrow']))
      refine (hrec.below id' row step hold hmem).imp_right fun hle => ?_
      exact hrow ▸ hle.trans (hlast row hold)
    · exact hkept ▸ hrec.below id' row step hrow hmem
  reached id' row' hrow' := by
    rcases hset id' row' hrow' with ⟨rfl, hrow⟩ | ⟨hid, row, hrow, hkept⟩
    · simp only [CodeLog.raise, Function.update_self, hrow, le_max_right]
    · simpa only [CodeLog.raise, Function.update_of_ne hid, hkept] using hrec.reached id' row hrow

/-! ### What keeps codes one-time -/

theorem oneTime_accept_iff {p : Nat × Int} :
    OneTime s (g.accept id p) ↔ OneTime s g ∧ p ∉ g.accepted id := by
  constructor
  · intro h
    have hid := h.once id
    simp only [CodeLog.accept, Function.update_self, List.nodup_cons] at hid
    refine ⟨⟨fun id' => ?_, h.kept⟩, hid.1⟩
    by_cases hne : id' = id
    · exact hne ▸ hid.2
    · simpa only [CodeLog.accept, Function.update_of_ne hne] using h.once id'
  · rintro ⟨h, hp⟩
    refine ⟨fun id' => ?_, h.kept⟩
    by_cases hne : id' = id
    · subst hne
      simpa only [CodeLog.accept, Function.update_self, List.nodup_cons] using ⟨hp, h.once id'⟩
    · simpa only [CodeLog.accept, Function.update_of_ne hne] using h.once id'

theorem oneTime_enable_iff :
    OneTime s (g.enable id step) ↔ OneTime s g ∧ (g.number id, step) ∉ g.accepted id := by
  rw [← oneTime_accept_iff]
  exact ⟨fun h => ⟨h.once, h.kept⟩, fun h => ⟨h.once, h.kept⟩⟩

/-- Setting the last step of a user keeps codes one-time if it does not lower it. -/
theorem oneTime_raise_iff (h : OneTime s g) (hrec : Recorded s g) {last : Int}
    (hset : LastSet s s' id last)
    (hthere : (s'.users.get? id).isSome = (s.users.get? id).isSome) :
    OneTime s' (g.raise id last) ↔
      ∀ row, s.users.get? id = some row → row.totpLastStep ≤ last := by
  constructor
  · intro hafter row hrow
    obtain ⟨row', hrow'⟩ := Option.isSome_iff_exists.mp (hthere.trans (by rw [hrow]; rfl))
    have hkept := hafter.kept id row' hrow'
    rcases hset id row' hrow' with ⟨-, hlast⟩ | ⟨hne, -⟩
    · simp only [CodeLog.raise, Function.update_self, hlast] at hkept
      exact (hrec.reached id row hrow).trans ((le_max_left _ _).trans hkept)
    · exact absurd rfl hne
  · -- the floor goes up with the last step of this user, and no other changes
    intro hle
    refine ⟨h.once, fun id' row' hrow' => ?_⟩
    rcases hset id' row' hrow' with ⟨rfl, hlast⟩ | ⟨hid, row, hrow, hkept⟩
    · obtain ⟨row, hrow⟩ := Option.isSome_iff_exists.mp (hthere.symm.trans (by rw [hrow']; rfl))
      simp only [CodeLog.raise, Function.update_self, hlast]
      exact max_le ((h.kept id' row hrow).trans (hle row hrow)) le_rfl
    · simpa only [CodeLog.raise, Function.update_of_ne hid, hkept] using h.kept id' row hrow

/-! ### Statements -/

theorem isSome_modify {f : UserRow → UserRow} {id' : Int} :
    ((s.users.modify id f).get? id').isSome = (s.users.get? id').isSome := by
  rw [Table.get?_modify]
  split_ifs <;> simp

/-- The last step of a user is set, or a new user has one. -/
def AccountEffect.setsStep : AccountEffect → Bool
  | createUser _ => true
  | setUserTOTP _ _ _ => true
  | consumeTOTPStep _ _ => true
  | _ => false

/-- The other statements keep the last steps there are. -/
theorem lastKept_apply {eff : AccountEffect} (hquiet : eff.setsStep = false) :
    LastKept s (eff.apply s) := by
  intro id' row' hrow'
  -- three statements set the last step; the rest leave it or delete the user
  cases eff with
  | createUser row => simp [AccountEffect.setsStep] at hquiet
  | setUserTOTP id secret enabled => simp [AccountEffect.setsStep] at hquiet
  | consumeTOTPStep id step => simp [AccountEffect.setsStep] at hquiet
  | deleteUser id =>
    rw [AccountEffect.apply, Store.deleteUser, Table.get?_erase] at hrow'
    split_ifs at hrow'
    exact ⟨row', hrow', rfl⟩
  | setPasswordHash id hash =>
    rw [AccountEffect.apply, Store.setPasswordHash, Table.get?_modify] at hrow'
    split_ifs at hrow'
    · obtain ⟨row, hrow, rfl⟩ := Option.map_eq_some_iff.mp hrow'
      exact ⟨row, hrow, rfl⟩
    · exact ⟨row', hrow', rfl⟩
  | createSession row =>
    rw [AccountEffect.apply, Store.createSession] at hrow'
    split_ifs at hrow' <;> exact ⟨row', hrow', rfl⟩
  | _ => exact ⟨row', hrow', rfl⟩

/-- After a statement codes are one-time exactly if it found that its code may be spent, and
then what else is recorded holds as well. -/
def Exact (s : Store) (g : CodeLog) (eff : AccountEffect) (r : Request) : Prop :=
  (OneTime (eff.apply s) (g.noteNext s eff r) ↔ Spendable s g eff r) ∧
    (OneTime (eff.apply s) (g.noteNext s eff r) → Recorded (eff.apply s) (g.noteNext s eff r))

variable {eff : AccountEffect} {r : Request} {user me : User} {t : Turn}

theorem exact_of_kept (h : OneTime s g) (hrec : Recorded s g) (hnote : g.noteNext s eff r = g)
    (hspend : Spendable s g eff r) (hkept : LastKept s (eff.apply s)) : Exact s g eff r := by
  rw [Exact, hnote]
  exact ⟨iff_of_true (h.congr hkept) hspend, fun _ => hrec.congr hkept⟩

theorem exact_of_renew (h : OneTime s g) (hrec : Recorded s g)
    (hnote : g.noteNext s eff r = g.renew id) (hspend : Spendable s g eff r)
    (hset : LastSet s (eff.apply s) id 0) : Exact s g eff r := by
  rw [Exact, hnote]
  exact ⟨iff_of_true (h.renew hset) hspend, fun _ => hrec.renew hset⟩

theorem exact_consume (h : OneTime s g) (hrec : Recorded s g) (hfresh : s.FreshStep user.id step) :
    Exact s g (.consumeTOTPStep user.id step) (.login (.consume user step)) := by
  have hset := lastSet_consumeTOTPStep hfresh
  obtain ⟨row, hrow, hlt⟩ := hfresh
  have hle : ∀ row', s.users.get? user.id = some row' → row'.totpLastStep ≤ step :=
    fun row' hrow' => Option.some.inj (hrow.symm.trans hrow') ▸ hlt.le
  have hthere : ((s.consumeTOTPStep user.id step).users.get? user.id).isSome =
      (s.users.get? user.id).isSome := isSome_modify
  -- the last step only goes up, since it was below the one that is consumed
  have honce := (oneTime_raise_iff h hrec hset hthere).mpr hle
  have hraise := hrec.raise hset hle (Eq.mp (congrArg (· = true) hthere))
  simp only [Exact, AccountEffect.apply, CodeLog.noteNext, Spendable]
  split_ifs with hsecret
  · constructor
    · rw [oneTime_accept_iff]
      simp only [hsecret, forall_const]
      constructor
      · exact fun hafter hmem => hafter.2 (hrec.subset _ hmem)
      · -- what was accepted but by `handle2FAEnable` is not above the last step
        refine fun hspent => ⟨honce, fun hmem => ?_⟩
        rcases hrec.below user.id row step hrow hmem with henabled | hbelow
        · exact hspent henabled
        · exact absurd hlt (not_lt.mpr hbelow)
    · intro _
      refine hraise.accept le_rfl fun _ row' hrow' => ?_
      rcases hset _ row' hrow' with ⟨-, hlast⟩ | ⟨hne, -⟩
      · exact hlast.ge
      · exact absurd rfl hne
  · exact ⟨iff_of_true honce fun hcontra => absurd hcontra hsecret, fun _ => hraise⟩

theorem exact_enable (h : OneTime s g) (hrec : Recorded s g) :
    Exact s g (.setUserTOTP user.id user.totpSecret true) (.authed (.enable2FA user step)) := by
  have hset : LastSet s (s.setUserTOTP user.id user.totpSecret true) user.id 0 :=
    lastSet_setUserTOTP true
  have hthere : ((s.setUserTOTP user.id user.totpSecret true).users.get? user.id).isSome =
      (s.users.get? user.id).isSome := isSome_modify
  simp only [Exact, AccountEffect.apply, CodeLog.noteNext, Spendable, oneTime_enable_iff]
  split_ifs with hsecret
  · have hraise := oneTime_raise_iff h hrec hset hthere
    refine ⟨?_, fun hafter => ?_⟩
    · simp only [hraise, hsecret, forall_const]
      exact and_comm
    · exact (hrec.raise hset (hraise.mp hafter.1) (Eq.mp (congrArg (· = true) hthere))).enable
  · refine ⟨iff_of_true ⟨h.renew hset, fun hmem => ?_⟩ fun hcontra => absurd hcontra hsecret,
      fun _ => (hrec.renew hset).enable⟩
    -- the secret is a new one
    have hle := hrec.numbered user.id _ hmem
    simp only [CodeLog.renew, Function.update_self] at hle
    omega

theorem exact_disable (h : OneTime s g) (hrec : Recorded s g) :
    Exact s g (.setUserTOTP user.id "" false) (.authed (.disable2FA user step)) := by
  have hset : LastSet s (s.setUserTOTP user.id "" false) user.id 0 := lastSet_setUserTOTP false
  simp only [Exact, AccountEffect.apply, CodeLog.noteNext, Spendable]
  split_ifs with hsecret
  · refine ⟨?_, fun _ => (hrec.renew hset).accept ?_ fun heq => ?_⟩
    · rw [oneTime_accept_iff, and_iff_right (h.renew hset)]
      simp only [hsecret, forall_const]
      rfl
    · simp only [CodeLog.renew, Function.update_self]
      omega
    · simp only [CodeLog.renew, Function.update_self] at heq
      omega
  · exact ⟨iff_of_true (h.renew hset) fun hcontra => absurd hcontra hsecret,
      fun _ => hrec.renew hset⟩

/-- Every statement keeps codes one-time exactly if it finds that its code may be spent. -/
theorem exact_next {r' : Request} (h : OneTime s g) (hrec : Recorded s g)
    (hnext : r.next cfg s t = some (eff, r')) : Exact s g eff r := by
  rcases Request.next_effect hnext with rfl | rfl
  · exact exact_of_kept h hrec rfl trivial lastKept_self
  cases r with
  | login pc =>
    cases pc with
    | consume user step =>
      refine exact_consume h hrec ?_
      -- a stale step is not consumed
      by_contra hstale
      have hnothing : Request.next cfg s t (.login (.consume user step)) =
          some (.nothing, .login .done) :=
        congrArg (Option.map _) (if_neg fun hfresh => hstale hfresh.2)
      exact absurd (hnext.symm.trans hnothing) (by simp [Request.statement])
    | _ => exact exact_of_kept h hrec rfl trivial (lastKept_apply rfl)
  | setup pc =>
    cases pc with
    | insert email hash => exact exact_of_renew h hrec rfl trivial (lastSet_createUser rfl)
    | _ => exact exact_of_kept h hrec rfl trivial (lastKept_apply rfl)
  | reset pc =>
    cases pc <;> exact exact_of_kept h hrec rfl trivial (lastKept_apply rfl)
  | authed pc =>
    cases pc with
    | insertUser email hash role =>
      exact exact_of_renew h hrec rfl trivial (lastSet_createUser rfl)
    | setup2FA me => exact exact_of_renew h hrec rfl trivial (lastSet_setUserTOTP false)
    | enable2FA user step => exact exact_enable h hrec
    | disable2FA user step => exact exact_disable h hrec
    | resolve bearer cookie op =>
      cases bearer <;> cases cookie <;>
        exact exact_of_kept h hrec rfl trivial (lastKept_apply rfl)
    | _ => exact exact_of_kept h hrec rfl trivial (lastKept_apply rfl)

/-- And so does every action. -/
theorem exact_step (h : OneTime w.1.store w.2) (hrec : Recorded w.1.store w.2)
    (hstep : codeStep cfg w act = some w') :
    (OneTime w'.1.store w'.2 ↔ NotSpent cfg w act) ∧
      (OneTime w'.1.store w'.2 → Recorded w'.1.store w'.2) := by
  obtain ⟨y', hy', rfl⟩ := Option.map_eq_some_iff.mp hstep
  rcases Accounts.step_cases hy' with
    ⟨r, harrival, -, rfl⟩ | ⟨i, t, r, eff, r', rfl, hr, hnext, heff, rfl⟩
  · -- a request arrives
    have hlog : CodeLog.note cfg w.2 w.1 act = w.2 := by
      cases act <;> first | rfl | simp [AccountAct.arrival] at harrival
    rw [hlog]
    refine ⟨iff_of_true h ?_, fun _ => hrec⟩
    rintro i t r' rfl
    simp [AccountAct.arrival] at harrival
  · have hexact := exact_next h hrec hnext
    have hlog : CodeLog.note cfg w.2 w.1 (.step i t) = w.2.noteNext w.1.store eff r := by
      simp only [CodeLog.note, hr, heff, Option.elim_some]
    have hspend : NotSpent cfg w (.step i t) ↔ Spendable w.1.store w.2 eff r := by
      constructor
      · exact fun hspent => heff ▸ hspent i t r rfl hr
      · rintro hspend i' t' r' hact hr'
        obtain ⟨rfl, rfl⟩ := AccountAct.step.inj hact
        obtain rfl := Option.some.inj (hr.symm.trans hr')
        exact heff ▸ hspend
    rw [hlog, hspend]
    exact hexact

/-- Over every interleaving of logins, of requests to set up, enable and disable TOTP and of
other requests, whatever fails in them: no step of a secret is accepted twice while a user
has it, and the last step does not fall, exactly if no login gives a step `handle2FAEnable`
has accepted, and the other two no step that was accepted and no last step to lower. -/
theorem one_time_iff (cfg : AuthConfig) (s : Store) (acts : List AccountAct) :
    Always (codeStep cfg) (fun w => OneTime w.1.store w.2) (⟨s, []⟩, CodeLog.start s) acts ↔
      Meets (codeStep cfg) (NotSpent cfg) (⟨s, []⟩, CodeLog.start s) acts := by
  apply always_iff_meets_of_inv (fun w : Accounts × CodeLog => Recorded w.1.store w.2)
    (recorded_start s) (oneTime_start s)
  · intro w act w' hrec h hstep
    exact (exact_step h hrec hstep).2
  · intro w act w' hrec h hstep
    exact (exact_step h hrec hstep).1
  · rintro w act hrefused i t r rfl -
    have hnone : w.1.step cfg (.step i t) = none := Option.map_eq_none_iff.mp hrefused
    rw [Accounts.effect_of_refused hnone]
    trivial

/-- A user who has set up TOTP and not enabled it yet. -/
def demoPending : Store where
  users := Table.empty.insert
    { email := "ann@example.org", passwordHash := "$2a$10$long enough", role := .admin
      totpSecret := "GEZDGNBVGY3TQOJQGEZDGNBVGY3TQOJQ" }
  tokens := Table.empty.insert ⟨1, "ann"⟩

/-- The time is 59 seconds into 1970. -/
def demoTurn : Turn := { now := 59 * Rfc3339.oneSecond, drawn := "session" }

/-- The code that enables TOTP is used to sign in. -/
def replayedCode : List AccountAct :=
  [.authed (some "ann") none (.enable2FA "287082"), .step 0 demoTurn, .step 0 demoTurn,
    .step 0 demoTurn, .login "ann@example.org" "long enough" "287082", .step 1 demoTurn,
    .step 1 demoTurn, .step 1 demoTurn]

/-- It is accepted both times. -/
theorem code_used_twice : ¬ ∀ cfg s acts, Always (codeStep cfg)
    (fun w => OneTime w.1.store w.2) (⟨s, []⟩, CodeLog.start s) acts := by
  intro hall
  have hend : ((run (codeStep demoConfig) (⟨demoPending, []⟩, CodeLog.start demoPending)
      replayedCode).map fun w => w.2.accepted 1) = some [(0, 1), (0, 1)] := by decide +kernel
  obtain ⟨w, hrun, haccepted⟩ := Option.map_eq_some_iff.mp hend
  have honce := (hall demoConfig demoPending replayedCode replayedCode w (List.prefix_refl _)
    hrun).once 1
  rw [haccepted] at honce
  exact absurd honce (by decide)

end CertGuard
