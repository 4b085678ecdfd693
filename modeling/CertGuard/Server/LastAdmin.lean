import CertGuard.Server.Accounts

/-!
# The last admin

`handleDeleteUser` refuses to delete whoever asks, and nobody else. As long as the account of
whoever asks is there at the `DELETE`, an admin is left. But that account was looked up before:
two admins who delete each other leave none, and without users everybody may set up the instance
again.

## Main definitions

* `HasAdmin` — there is an admin account
* `AdminKept` — there is, and setting up is refused
* `AskerThere` — the account of whoever asked for a `DELETE` is still there
* `AskedByAdmins` — what the guards of `handleDeleteUser` made sure of

## Main results

* `askedByAdmins_step` — the guards hold of every `DELETE` under way, whatever happens meanwhile
* `admin_kept` — a run in which whoever asked is still there keeps an admin
* `both_deleted` — and a run that loses both
-/

namespace CertGuard

open Transition

/-- There is an admin account. -/
def HasAdmin (s : Store) : Prop := ∃ id row, s.users.get? id = some row ∧ row.role = .admin

/-- There is an admin account, and whoever asks to set up the instance is refused. -/
def AdminKept (cfg : AuthConfig) (y : Accounts) : Prop :=
  HasAdmin y.store ∧ ∀ t email password,
    SetupPc.next cfg y.store t (.count email password) = some (.nothing, .done)

/-- The account of whoever asked for a `DELETE` of a user is there when it takes effect. -/
def AskerThere (y : Accounts) (act : AccountAct) : Prop :=
  ∀ (i : Nat) (t : Turn) (me : User) (id : Int), act = .step i t → t.ok = true →
    y.requests[i]? = some (.authed (.deleteUser me id)) → (y.store.users.get? me.id).isSome

/-- Whoever asked for a `DELETE` asked for another account, has an id that was given out, and
is an admin as long as the account is there. -/
def AskedByAdmins (y : Accounts) : Prop :=
  ∀ (i : Nat) (me : User) (id : Int), y.requests[i]? = some (.authed (.deleteUser me id)) →
    me.id ≠ id ∧ me.id ≤ y.store.users.seq ∧
      ∀ row, y.store.users.get? me.id = some row → row.role = .admin

variable {cfg : AuthConfig} {s : Store} {y y' : Accounts} {act : AccountAct} {id : Int}

/-- A statement that deletes no user leaves the roles there are. -/
theorem role_apply {eff : AccountEffect} (hdelete : ∀ id, eff ≠ .deleteUser id) {row : UserRow}
    (h : s.users.get? id = some row) :
    ∃ row', (eff.apply s).users.get? id = some row' ∧ row'.role = row.role := by
  -- no statement that changes a user changes the role
  have hmodify : ∀ (id' : Int) (f : UserRow → UserRow), (∀ r, (f r).role = r.role) →
      ∃ row', (s.users.modify id' f).get? id = some row' ∧ row'.role = row.role := by
    intro id' f hf
    rw [Table.get?_modify, h]
    split_ifs
    · exact ⟨f row, rfl, hf row⟩
    · exact ⟨row, rfl, rfl⟩
  cases eff with
  | nothing => exact ⟨row, h, rfl⟩
  | createUser new =>
    rw [AccountEffect.apply, Store.createUser]
    split_ifs
    · exact ⟨row, Table.get?_insert_of_some h, rfl⟩
    · exact ⟨row, h, rfl⟩
  | deleteUser id => exact absurd rfl (hdelete id)
  | setPasswordHash id' hash => exact hmodify id' _ fun _ => rfl
  | setUserTOTP id' secret enabled => exact hmodify id' _ fun _ => rfl
  | consumeTOTPStep id' step =>
    refine hmodify id' _ fun r => ?_
    split_ifs <;> rfl
  | createSession row' =>
    rw [AccountEffect.apply, Store.createSession]
    split_ifs <;> exact ⟨row, h, rfl⟩
  | deleteSessions id' => exact ⟨row, h, rfl⟩
  | deleteSession sessionHash => exact ⟨row, h, rfl⟩

/-- Nobody sets up an instance that has an admin. -/
theorem adminKept_iff : AdminKept cfg y ↔ HasAdmin y.store := by
  refine and_iff_left_of_imp fun ⟨id, row, hrow, _⟩ t email password => ?_
  have hcount : 0 < y.store.countUsers :=
    List.length_pos_of_mem (Table.mem_rows_iff.mpr hrow)
  exact if_pos (Or.inr (Or.inl hcount))

/-- An account there is after a statement was there before with its role, unless its id is new. -/
theorem role_of_apply {eff : AccountEffect} {row' : UserRow}
    (h : (eff.apply s).users.get? id = some row') (hid : id ≤ s.users.seq) :
    ∃ row, s.users.get? id = some row ∧ row.role = row'.role := by
  by_cases hdelete : ∃ k, eff = .deleteUser k
  · obtain ⟨k, rfl⟩ := hdelete
    rw [AccountEffect.apply, Store.deleteUser, Table.get?_erase] at h
    split_ifs at h
    exact ⟨row', h, rfl⟩
  · have hnone : ∀ k, eff ≠ .deleteUser k := fun k hk => hdelete ⟨k, hk⟩
    cases hrow : s.users.get? id with
    | some row =>
      obtain ⟨row'', hrow'', hrole⟩ := role_apply hnone hrow
      obtain rfl := Option.some.inj (h.symm.trans hrow'')
      exact ⟨row, rfl, hrole.symm⟩
    | none =>
      -- only an `INSERT` brings an account, under an id of its own
      have hmodify : ∀ (k : Int) (f : UserRow → UserRow), (s.users.modify k f).get? id = none := by
        intro k f
        rw [Table.get?_modify, hrow]
        split_ifs <;> rfl
      have hnext : id ≠ s.users.nextKey := by
        rw [Table.nextKey]
        omega
      refine absurd h ?_
      cases eff with
      | createUser new =>
        rw [AccountEffect.apply, Store.createUser]
        split_ifs
        · simp [Table.get?_insert, hnext, hrow]
        · simp [hrow]
      | deleteUser k => exact absurd rfl (hnone k)
      | setPasswordHash k hash => simp [AccountEffect.apply, Store.setPasswordHash, hmodify]
      | setUserTOTP k secret enabled => simp [AccountEffect.apply, Store.setUserTOTP, hmodify]
      | consumeTOTPStep k step => simp [AccountEffect.apply, Store.consumeTOTPStep, hmodify]
      | createSession row' =>
        rw [AccountEffect.apply, Store.createSession]
        split_ifs <;> simp [hrow]
      | _ => simp [AccountEffect.apply, Store.deleteSessions, Store.deleteSession, hrow]

/-- Ids are given out once. -/
theorem seq_apply (s : Store) (eff : AccountEffect) :
    s.users.seq ≤ (eff.apply s).users.seq := by
  cases eff with
  | createUser new =>
    rw [AccountEffect.apply, Store.createUser]
    split_ifs
    · exact (Int.lt_add_one_iff.mpr le_rfl).le
    · exact le_rfl
  | createSession row =>
    rw [AccountEffect.apply, Store.createSession]
    split_ifs <;> exact le_rfl
  | _ => exact le_rfl

theorem resolveUser_eq_some {now : Int} {bearer cookie : Option String} {me : User}
    (h : resolveUser s now bearer cookie = some me) :
    ∃ row, s.users.get? me.id = some row ∧ row.role = me.role := by
  have hread : ∀ k, s.getUserByID k = some me →
      ∃ row, s.users.get? me.id = some row ∧ row.role = me.role := by
    intro k hk
    obtain ⟨row, hrow, rfl⟩ := getUserByID_eq_some_iff.mp hk
    exact ⟨row, hrow, rfl⟩
  cases bearer with
  | some tokenHash =>
    obtain ⟨r, -, hr⟩ := Option.bind_eq_some_iff.mp h
    exact hread _ hr
  | none =>
    cases cookie with
    | none => exact absurd h (by simp [resolveUser])
    | some sessionHash =>
      simp only [resolveUser, Store.userBySessionHash] at h
      split at h
      · split_ifs at h
        exact hread _ h
      · exact absurd h (by simp)

/-- A request comes to a `DELETE` only from the lookup of an admin who asks for another account. -/
theorem AuthedPc.deleteUser_next {t : Turn} {pc : AuthedPc} {eff : AccountEffect} {me : User}
    (h : pc.next cfg s t = some (eff, .deleteUser me id)) :
    eff = .nothing ∧ me.id ≠ id ∧ ∃ row, s.users.get? me.id = some row ∧ row.role = .admin := by
  cases pc with
  | resolve bearer cookie op =>
    simp only [AuthedPc.next] at h
    split at h
    · exact absurd h (by simp)
    · next me' hme =>
      obtain ⟨rfl, hdispatch⟩ := Prod.mk.inj (Option.some.inj h)
      obtain ⟨-, hresolve⟩ := Option.ite_none_right_eq_some.mp hme
      cases op with
      | deleteUser k =>
        simp only [AuthedPc.dispatch] at hdispatch
        split_ifs at hdispatch with hrefused
        obtain ⟨rfl, rfl⟩ := AuthedPc.deleteUser.inj hdispatch
        obtain ⟨hadmin, hother⟩ := not_or.mp hrefused
        obtain ⟨row, hrow, hrole⟩ := resolveUser_eq_some hresolve
        refine ⟨rfl, hother, row, hrow, ?_⟩
        rw [hrole]
        simpa [User.isAdmin] using hadmin
      | createUser email password role =>
        exfalso
        simp only [AuthedPc.dispatch] at hdispatch
        split_ifs at hdispatch <;> split at hdispatch <;> simp at hdispatch
      | logout => cases cookie <;> simp [AuthedPc.dispatch] at hdispatch
      | setup2FA =>
        simp only [AuthedPc.dispatch] at hdispatch
        split_ifs at hdispatch
      | _ => simp [AuthedPc.dispatch] at hdispatch
  | _ => grind [AuthedPc.next]

/-- What the guards made sure of stays so. -/
theorem askedByAdmins_step (h : AskedByAdmins y) (hstep : y.step cfg act = some y') :
    AskedByAdmins y' := by
  intro i me id hi
  rw [Accounts.store_step hstep]
  rcases Accounts.request_cases hstep hi with ⟨hold, -⟩ | harrival | ⟨t, r, rfl, hr, hnext⟩
  · obtain ⟨hother, hseq, hadmin⟩ := h i me id hold
    refine ⟨hother, hseq.trans (seq_apply _ _), fun row' hrow' => ?_⟩
    obtain ⟨row, hrow, hrole⟩ := role_of_apply hrow' hseq
    exact hrole.symm.trans (hadmin row hrow)
  · cases act <;> simp [AccountAct.arrival] at harrival
  · cases r with
    | authed pc =>
      obtain ⟨⟨eff, pc'⟩, hpc, heq⟩ := Option.map_eq_some_iff.mp hnext
      obtain ⟨heff, hpc'⟩ := Prod.mk.inj heq
      obtain rfl := Request.authed.inj hpc'
      obtain ⟨rfl, hother, row, hrow, hrole⟩ := AuthedPc.deleteUser_next hpc
      rw [← heff]
      refine ⟨hother, Table.le_seq_of_get? hrow, fun row' hrow' => ?_⟩
      obtain rfl := Option.some.inj (hrow.symm.trans hrow')
      exact hrole
    | login pc => simp [Request.next] at hnext
    | setup pc => simp [Request.next] at hnext
    | reset pc => simp [Request.next] at hnext

theorem askedByAdmins_run {acts : List AccountAct}
    (hrun : run (Accounts.step cfg) ⟨s, []⟩ acts = some y) : AskedByAdmins y := by
  have hall : Always (Accounts.step cfg) AskedByAdmins ⟨s, []⟩ acts :=
    always_of_meets (C := fun _ _ => True) (fun i me id hi => absurd hi (by simp))
      (fun _ _ _ hy _ hstep => askedByAdmins_step hy hstep) fun _ _ _ _ _ => trivial
  exact hall acts y (List.prefix_refl _) hrun

/-- A user is deleted only by the `DELETE` of a request. -/
theorem Request.deleteUser_effect {t : Turn} {r r' : Request}
    (h : r.next cfg s t = some (.deleteUser id, r')) :
    t.ok = true ∧ ∃ me, r = .authed (.deleteUser me id) := by
  have hstatement : r.statement cfg t = .deleteUser id :=
    ((Request.next_effect h).resolve_left (by simp)).symm
  cases r with
  | authed pc =>
    cases pc with
    | deleteUser me k =>
      obtain rfl := AccountEffect.deleteUser.inj hstatement
      refine ⟨?_, me, rfl⟩
      cases hok : t.ok with
      | true => rfl
      | false => simp [Request.next, AuthedPc.next, hok] at h
    | resolve bearer cookie op =>
      cases bearer <;> cases cookie <;> simp [Request.statement] at hstatement
    | _ => simp [Request.statement] at hstatement
  | login pc => cases pc <;> simp [Request.statement] at hstatement
  | setup pc => cases pc <;> simp [Request.statement] at hstatement
  | reset pc => cases pc <;> simp [Request.statement] at hstatement

/-- An action leaves an admin where whoever asked for a `DELETE` is still there. -/
theorem hasAdmin_step (hasked : AskedByAdmins y) (h : HasAdmin y.store)
    (hthere : AskerThere y act) (hstep : y.step cfg act = some y') : HasAdmin y'.store := by
  rw [Accounts.store_step hstep]
  by_cases hdelete : ∃ id, y.effect cfg act = .deleteUser id
  · obtain ⟨id, hid⟩ := hdelete
    rw [hid]
    rcases Accounts.step_cases hstep with
      ⟨-, -, hnothing, -⟩ | ⟨i, t, r, eff, r', rfl, hr, hnext, heff, -⟩
    · exact absurd (hid.symm.trans hnothing) (by simp)
    -- it is the `DELETE` of a request, and whoever sent it is left
    obtain rfl := heff.symm.trans hid
    obtain ⟨hok, me, rfl⟩ := Request.deleteUser_effect hnext
    obtain ⟨hother, -, hadmin⟩ := hasked i me id hr
    obtain ⟨row, hrow⟩ := Option.isSome_iff_exists.mp (hthere i t me id rfl hok hr)
    refine ⟨me.id, row, ?_, hadmin row hrow⟩
    rw [AccountEffect.apply, Store.deleteUser, Table.get?_erase, if_neg hother, hrow]
  · obtain ⟨id, row, hrow, hadmin⟩ := h
    have hnone : ∀ id, y.effect cfg act ≠ .deleteUser id := fun id hid => hdelete ⟨id, hid⟩
    obtain ⟨row', hrow', hrole⟩ := role_apply hnone hrow
    exact ⟨id, row', hrow', hrole.trans hadmin⟩

/-- From every state with an admin that requests and failing statements in any order have led
to, over every interleaving of further ones: as long as every `DELETE` of a user finds the account
of whoever asked for it, there is an admin throughout and nobody may set up the instance again. -/
theorem admin_kept (cfg : AuthConfig) (s : Store) (before acts : List AccountAct) (y : Accounts)
    (hrun : run (Accounts.step cfg) ⟨s, []⟩ before = some y) (h : HasAdmin y.store)
    (hthere : Meets (Accounts.step cfg) AskerThere y acts) :
    Always (Accounts.step cfg) (AdminKept cfg) y acts := by
  have hall : Always (Accounts.step cfg) (fun y => AskedByAdmins y ∧ HasAdmin y.store) y acts :=
    always_of_meets ⟨askedByAdmins_run hrun, h⟩
      (fun _ _ _ hy hasker hstep => ⟨askedByAdmins_step hy.1 hstep,
        hasAdmin_step hy.1 hy.2 hasker hstep⟩) hthere
  exact hall.mono fun y hy => adminKept_iff.mpr hy.2

/-- Two admins, each with a token. -/
def demoAdmins : Accounts where
  store :=
    { users := (Table.empty.insert
        { email := "ann@example.org", passwordHash := "", role := .admin }).insert
          { email := "bob@example.org", passwordHash := "", role := .admin }
      tokens := (Table.empty.insert ⟨1, "ann"⟩).insert ⟨2, "bob"⟩ }
  requests := []

/-- One of them deletes the other. -/
theorem admin_kept_demo : Always (Accounts.step demoConfig) (AdminKept demoConfig) demoAdmins
    [.authed (some "ann") none (.deleteUser 2), .step 0 {}, .step 0 {}] := by
  refine admin_kept demoConfig demoAdmins.store [] _ demoAdmins rfl ⟨1, _, rfl, rfl⟩ ?_
  have hnone : ∀ {y : Accounts} {act : AccountAct}, (∀ i t, act ≠ .step i t) → AskerThere y act :=
    fun h i t _ _ hact => absurd hact (h i t)
  refine meets_cons.mpr ⟨hnone (by simp), fun y hy => ?_⟩
  obtain rfl := Option.some.inj hy
  refine meets_cons.mpr ⟨?_, fun y hy => ?_⟩
  · rintro i t me id hact - hi
    obtain ⟨rfl, -⟩ := AccountAct.step.inj hact
    exact absurd (Option.some.inj hi) (by simp)
  obtain rfl := Option.some.inj hy
  refine meets_cons.mpr ⟨?_, fun y hy => meets_nil⟩
  rintro i t me id hact - hi
  obtain ⟨rfl, -⟩ := AccountAct.step.inj hact
  obtain ⟨rfl, rfl⟩ := AuthedPc.deleteUser.inj (Request.authed.inj (Option.some.inj hi))
  decide

/-- Each deletes the other. -/
def mutualDelete : List AccountAct :=
  [.authed (some "ann") none (.deleteUser 2), .authed (some "bob") none (.deleteUser 1),
    .step 0 {}, .step 1 {}, .step 0 {}, .step 1 {}]

/-- Nobody is left, and the next one to come sets up the instance. -/
theorem both_deleted : ¬ ∀ cfg y acts, HasAdmin y.store →
    Always (Accounts.step cfg) (AdminKept cfg) y acts := by
  intro hall
  have hend : ((run (Accounts.step demoConfig) demoAdmins mutualDelete).map fun y =>
      y.store.users.rows) = some [] := by decide
  obtain ⟨y, hrun, hrows⟩ := Option.map_eq_some_iff.mp hend
  obtain ⟨⟨id, row, hrow, -⟩, -⟩ := hall demoConfig demoAdmins mutualDelete ⟨1, _, rfl, rfl⟩
    mutualDelete y (List.prefix_refl _) hrun
  rw [← Table.mem_rows_iff, hrows] at hrow
  exact absurd hrow List.not_mem_nil

end CertGuard
