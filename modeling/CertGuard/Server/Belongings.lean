import CertGuard.Server.AccountsApart
import Mathlib.Data.List.Find

/-!
# What a user has

The rows that belong to one user, the store without them, and the statements other users'
requests are made of: each leaves these rows as they are, and does the same without them.

## Main definitions

* `Store.keyIds`, `Store.belongings` — what a user has
* `Store.without` — a store without a user's channels, keys and wrappers
* `Store.Constrained` — what the constraints of the tables promise
* `SparesUser` — what leaves alone what a user has, and goes the same way without it

## Main results

* `spares_deleteUser`, `spares_deleteCredential`, … — the statements
* `ownedCredential_without` — the keys of somebody else
-/

namespace CertGuard

/-- What a user has. -/
structure Belongings where
  channels : List (Int × ChannelRow)
  credentials : List (Int × CredentialRow)
  wrappers : List WrapperRow
  user : Option UserRow
  sessions : List (Int × SessionRow)

namespace Store

/-- The ids of a user's security keys. -/
def keyIds (s : Store) (b : Int) : List String :=
  (s.credentials.part fun r => r.userId = b).map fun r => r.2.credentialId

/-- What a user has; a wrapper goes with a key. -/
def belongings (s : Store) (b : Int) : Belongings where
  channels := s.channels.part fun r => r.userId = b
  credentials := s.credentials.part fun r => r.userId = b
  wrappers := s.wrappers.filter fun w => (s.keyIds b).contains w.credentialId
  user := s.users.get? b
  sessions := s.sessions.part fun r => r.userId = b

/-- The store without the channels, the keys and the wrappers of a user. -/
def without (s : Store) (b : Int) : Store :=
  { s with
    channels := s.channels.eraseAll fun r => r.userId = b
    credentials := s.credentials.eraseAll fun r => r.userId = b
    wrappers := s.wrappers.filter fun w => !(s.keyIds b).contains w.credentialId }

/-- No two keys have one id, and the ids of users are positive. -/
structure Constrained (s : Store) : Prop where
  credentialIds : (s.credentials.rows.map fun r => r.2.credentialId).Nodup
  userSeq : 0 ≤ s.users.seq
  userIds : ∀ id row, s.users.get? id = some row → 0 < id

end Store

/-- What leads from `s` to `s₁` leaves alone what a user has, and without it leads to the
same. -/
structure SparesUser (b : Int) (s s₁ s₁' : Store) : Prop where
  belongings : s₁.belongings b = s.belongings b
  constrained : s₁.Constrained
  without : s₁' = s₁.without b

variable {s s₁ s₂ s₁' s₂' : Store} {b c id : Int} {cid : String}

theorem SparesUser.refl (hs : s.Constrained) : SparesUser b s s (s.without b) := ⟨rfl, hs, rfl⟩

theorem SparesUser.trans (h : SparesUser b s s₁ s₁')
    (hthen : s₁.Constrained → s₁' = s₁.without b → SparesUser b s₁ s₂ s₂') :
    SparesUser b s s₂ s₂' :=
  let h₂ := hthen h.constrained h.without
  ⟨h₂.belongings.trans h.belongings, h₂.constrained, h₂.without⟩

/-! ### Keys and their ids -/

theorem mem_keyIds_iff : cid ∈ s.keyIds b ↔
    ∃ k r, (k, r) ∈ s.credentials.rows ∧ r.userId = b ∧ r.credentialId = cid := by
  simp [Store.keyIds, Table.part, and_assoc]

/-- An id belongs to one key. -/
theorem Store.Constrained.eq_of_credentialId (hs : s.Constrained) {r r' : Int × CredentialRow}
    (h : r ∈ s.credentials.rows) (h' : r' ∈ s.credentials.rows)
    (hid : r.2.credentialId = r'.2.credentialId) : r = r' :=
  List.inj_on_of_nodup_map hs.credentialIds h h' hid

/-- Nobody else has a key with the id. -/
theorem not_mem_keyIds (hs : s.Constrained) (hc : c ≠ b) (hcid : cid ∈ s.keyIds c) :
    cid ∉ s.keyIds b := by
  intro hb
  obtain ⟨k, r, hr, hrc, hrid⟩ := mem_keyIds_iff.mp hcid
  obtain ⟨k', r', hr', hrb, hrid'⟩ := mem_keyIds_iff.mp hb
  have heq := hs.eq_of_credentialId hr hr' (hrid.trans hrid'.symm)
  obtain ⟨-, rfl⟩ := Prod.mk.inj heq
  exact hc (hrc.symm.trans hrb)

theorem keyIds_of_part (h : (s₁.credentials.part fun r => r.userId = b) =
    s.credentials.part fun r => r.userId = b) : s₁.keyIds b = s.keyIds b := by
  rw [Store.keyIds, h, Store.keyIds]

/-- The ids of keys after some of the keys are gone. -/
theorem constrained_of_sublist (hs : s.Constrained)
    (hrows : s₁.credentials.rows.Sublist s.credentials.rows) (husers : s₁.users = s.users) :
    s₁.Constrained :=
  ⟨hs.credentialIds.sublist (hrows.map _), husers ▸ hs.userSeq, husers ▸ hs.userIds⟩

theorem belongings_eq
    (hchannels : (s₁.channels.part fun r => r.userId = b) = s.channels.part fun r => r.userId = b)
    (hcredentials : (s₁.credentials.part fun r => r.userId = b) =
      s.credentials.part fun r => r.userId = b)
    (hwrappers : s₁.wrappers.filter (fun w => (s₁.keyIds b).contains w.credentialId) =
      s.wrappers.filter fun w => (s.keyIds b).contains w.credentialId)
    (huser : s₁.users.get? b = s.users.get? b)
    (hsessions : (s₁.sessions.part fun r => r.userId = b) =
      s.sessions.part fun r => r.userId = b) : s₁.belongings b = s.belongings b := by
  simp only [Store.belongings, hchannels, hcredentials, hwrappers, huser, hsessions]

theorem without_eq (hchannels : s₁'.channels = s₁.channels.eraseAll fun r => r.userId = b)
    (hcredentials : s₁'.credentials = s₁.credentials.eraseAll fun r => r.userId = b)
    (hwrappers : s₁'.wrappers =
      s₁.wrappers.filter fun w => !(s₁.keyIds b).contains w.credentialId)
    (hcerts : s₁'.certs = s₁.certs) (hevents : s₁'.events = s₁.events)
    (hkeyring : s₁'.keyring = s₁.keyring) (husers : s₁'.users = s₁.users)
    (hsessions : s₁'.sessions = s₁.sessions) (htokens : s₁'.tokens = s₁.tokens) :
    s₁' = s₁.without b := by
  rw [Store.without, ← hchannels, ← hcredentials, ← hwrappers, ← hcerts, ← hevents, ← hkeyring,
    ← husers, ← hsessions, ← htokens]

/-- A user's wrappers stay where those are kept that go with the user's keys. -/
theorem filter_keyIds (keep : String → Bool) (hkeep : ∀ cid ∈ s.keyIds b, keep cid = true) :
    (s.wrappers.filter fun w => keep w.credentialId).filter
      (fun w => (s.keyIds b).contains w.credentialId) =
      s.wrappers.filter fun w => (s.keyIds b).contains w.credentialId := by
  refine (List.filter_filter ..).trans (List.filter_congr fun w _ => ?_)
  by_cases hw : w.credentialId ∈ s.keyIds b
  · rw [hkeep _ hw, Bool.and_true]
  · simp [hw]

/-- Where keys, wrappers and users stay, only channels and sessions matter. -/
theorem spares_of_same (hs : s.Constrained) (hcredentials : s₁.credentials = s.credentials)
    (hwrappers : s₁.wrappers = s.wrappers) (husers : s₁.users = s.users)
    (hchannels : (s₁.channels.part fun r => r.userId = b) = s.channels.part fun r => r.userId = b)
    (hsessions : (s₁.sessions.part fun r => r.userId = b) = s.sessions.part fun r => r.userId = b)
    (hwithout : s₁' = s₁.without b) : SparesUser b s s₁ s₁' where
  belongings := by
    simp only [Store.belongings, Store.keyIds, hcredentials, hwrappers, husers, hchannels,
      hsessions]
  constrained := constrained_of_sublist hs (hcredentials ▸ List.Sublist.refl _) husers
  without := hwithout

/-! ### Users and sessions -/

theorem spares_modifyUser (hs : s.Constrained) (hc : c ≠ b) (f : UserRow → UserRow) :
    SparesUser b s { s with users := s.users.modify c f }
      { s.without b with users := s.users.modify c f } where
  belongings := by
    have huser : (s.users.modify c f).get? b = s.users.get? b := by
      rw [Table.get?_modify, if_neg (Ne.symm hc)]
    simp only [Store.belongings, Store.keyIds, huser]
  constrained := by
    refine ⟨hs.credentialIds, hs.userSeq, fun id row hrow => ?_⟩
    have hget : ((s.users.get? id).map fun r => if id = c then f r else r) = some row := by
      rw [Table.get?_modify] at hrow
      split_ifs at hrow ⊢ with hid
      · simpa [hid] using hrow
      · simpa [hid] using hrow
    obtain ⟨row', hrow', -⟩ := Option.map_eq_some_iff.mp hget
    exact hs.userIds id row' hrow'
  without := rfl

theorem spares_setUserTOTP (hs : s.Constrained) (hc : c ≠ b) (secret : String) (enabled : Bool) :
    SparesUser b s (s.setUserTOTP c secret enabled) ((s.without b).setUserTOTP c secret enabled) :=
  spares_modifyUser hs hc _

theorem spares_createUser (hs : s.Constrained) (hb : (s.users.get? b).isSome) (row : UserRow) :
    SparesUser b s (s.createUser row) ((s.without b).createUser row) := by
  have htakes : (s.without b).TakesUser row ↔ s.TakesUser row := Iff.rfl
  unfold Store.createUser
  by_cases htaken : s.TakesUser row
  · rw [if_pos htaken, if_pos (htakes.mpr htaken)]
    obtain ⟨old, hold⟩ := Option.isSome_iff_exists.mp hb
    refine ⟨?_, ⟨hs.credentialIds, ?_, fun id row' hrow => ?_⟩, rfl⟩
    · simp only [Store.belongings, Store.keyIds, Table.get?_insert_of_some hold, hold]
    · exact hs.userSeq.trans (Int.le_of_lt (Int.lt_add_one_of_le le_rfl))
    · rw [Table.get?_insert] at hrow
      split_ifs at hrow with hid
      · exact hid ▸ Int.lt_add_one_of_le hs.userSeq
      · exact hs.userIds id row' hrow
  · rw [if_neg htaken, if_neg (mt htakes.mp htaken)]
    exact SparesUser.refl hs

theorem spares_deleteSession {sessionHash : String} (hs : s.Constrained)
    (hother : ∀ r ∈ s.sessions.rows, r.2.userId = b → r.2.sessionHash ≠ sessionHash) :
    SparesUser b s (s.deleteSession sessionHash) ((s.without b).deleteSession sessionHash) := by
  refine spares_of_same hs rfl rfl rfl rfl ?_ rfl
  rw [Table.part, Table.part, Store.deleteSession, Table.eraseAll, List.filter_filter]
  refine List.filter_congr fun r hr => ?_
  by_cases hrb : r.2.userId = b
  · simp [hrb, hother r hr hrb]
  · simp [hrb]

theorem spares_deleteUser (hs : s.Constrained) (hc : c ≠ b) :
    SparesUser b s (s.deleteUser c) ((s.without b).deleteUser c) := by
  have hlost : (s.without b).keyIds c = s.keyIds c :=
    keyIds_of_part (Table.part_eraseAll_of_ne CredentialRow.userId hc)
  have hkeys : (s.deleteUser c).keyIds b = s.keyIds b :=
    keyIds_of_part (Table.part_eraseAll_of_ne CredentialRow.userId (Ne.symm hc))
  -- wrappers go with the credentials of the deleted user
  have hgone : ∀ s : Store, (s.deleteUser c).wrappers =
      s.wrappers.filter fun w => !(s.keyIds c).contains w.credentialId := by
    intro s
    refine List.filter_congr fun w _ => ?_
    rw [List.contains_eq_mem]
    exact decide_not
  have hchannels := @Table.part_eraseAll_of_ne _ s.channels _ _ _ _ ChannelRow.userId (Ne.symm hc)
  have hcredentials :=
    @Table.part_eraseAll_of_ne _ s.credentials _ _ _ _ CredentialRow.userId (Ne.symm hc)
  have hsessions := @Table.part_eraseAll_of_ne _ s.sessions _ _ _ _ SessionRow.userId (Ne.symm hc)
  refine ⟨belongings_eq hchannels hcredentials ?_ ?_ hsessions, ⟨?_, hs.userSeq, ?_⟩, ?_⟩
  · rw [hkeys, hgone]
    -- credential ids are unique, so that none of `b` is among those deleted
    refine filter_keyIds (fun cid => !(s.keyIds c).contains cid) fun cid hcid => ?_
    simpa using not_mem_keyIds hs (Ne.symm hc) hcid
  · exact Table.get?_erase.trans (if_neg (Ne.symm hc))
  · exact hs.credentialIds.sublist (List.filter_sublist.map _)
  · intro id row hrow
    have hrow' : (s.users.erase c).get? id = some row := hrow
    rw [Table.get?_erase] at hrow'
    split_ifs at hrow' with hid
    exact hs.userIds id row hrow'
  · have hwrappers : ((s.without b).deleteUser c).wrappers =
        (s.deleteUser c).wrappers.filter fun w => !((s.deleteUser c).keyIds b).contains
          w.credentialId := by
      rw [hkeys, hgone, hgone, hlost]
      exact List.filter_comm _ _ _
    have hchannels' := @Table.eraseAll_eraseAll _ s.channels (fun r => r.userId = b)
      fun r => r.userId = c
    have hcredentials' := @Table.eraseAll_eraseAll _ s.credentials (fun r => r.userId = b)
      fun r => r.userId = c
    exact without_eq hchannels' hcredentials' hwrappers rfl rfl rfl rfl rfl rfl

/-! ### Channels -/

theorem spares_insertChannel {row : ChannelRow} (hs : s.Constrained) (hrow : row.userId ≠ b) :
    SparesUser b s { s with channels := s.channels.insert row }
      { s.without b with channels := (s.without b).channels.insert row } := by
  refine spares_of_same hs rfl rfl rfl (Table.part_insert (by simpa using hrow)) rfl ?_
  have hinsert := @Table.eraseAll_insert _ s.channels row (fun r => r.userId = b)
    (by simpa using hrow)
  simp only [Store.without, hinsert]
  rfl

theorem spares_eraseChannel {row : ChannelRow} (hs : s.Constrained)
    (hget : s.channels.get? id = some row) (hrow : row.userId ≠ b) :
    SparesUser b s { s with channels := s.channels.erase id }
      { s.without b with channels := (s.without b).channels.erase id } := by
  refine spares_of_same hs rfl rfl rfl (Table.part_erase fun row' hrow' => ?_) rfl ?_
  · obtain rfl := Option.some.inj (hget.symm.trans hrow')
    simpa using hrow
  · simp only [Store.without, Table.eraseAll_erase]
    rfl

/-! ### Keys and wrappers -/

theorem spares_insertCredential {row : CredentialRow} (hs : s.Constrained) (hrow : row.userId ≠ b)
    (hnew : ∀ r ∈ s.credentials.rows, r.2.credentialId ≠ row.credentialId) :
    SparesUser b s { s with credentials := s.credentials.insert row }
      { s.without b with credentials := (s.without b).credentials.insert row } := by
  have hpart : ((s.credentials.insert row).part fun r => r.userId = b) =
      s.credentials.part fun r => r.userId = b := Table.part_insert (by simpa using hrow)
  refine ⟨?_, ⟨?_, hs.userSeq, hs.userIds⟩, ?_⟩
  · simp only [Store.belongings, Store.keyIds, hpart]
  · simp only [Table.insert, List.map_append, List.map_cons, List.map_nil]
    refine hs.credentialIds.append (List.nodup_singleton _) fun cid hcid hcid' => ?_
    obtain ⟨r, hr, rfl⟩ := List.mem_map.mp hcid
    exact hnew r hr (List.mem_singleton.mp hcid')
  · have hinsert := @Table.eraseAll_insert _ s.credentials row (fun r => r.userId = b)
      (by simpa using hrow)
    simp only [Store.without, Store.keyIds, hpart, hinsert]

/-- The table takes a key if it does without the keys of a user, none of which has its id. -/
theorem takesCredential_without {row : CredentialRow} (hcid : row.credentialId ∉ s.keyIds b) :
    (s.without b).TakesCredential row ↔ s.TakesCredential row := by
  refine and_congr_right fun _ => ⟨fun h r hr hid => ?_, fun h r hr => ?_⟩
  · have hrb : r.2.userId ≠ b := fun hrb => hcid (mem_keyIds_iff.mpr ⟨r.1, r.2, hr, hrb, hid⟩)
    exact h r (List.mem_filter.mpr ⟨hr, by simpa using hrb⟩) hid
  · exact h r (List.mem_of_mem_filter hr)

theorem spares_addCredential {row : CredentialRow} (hs : s.Constrained) (hrow : row.userId ≠ b)
    (hcid : row.credentialId ∉ s.keyIds b) :
    SparesUser b s (s.addCredential row) ((s.without b).addCredential row) := by
  have htakes := takesCredential_without hcid
  by_cases htaken : s.TakesCredential row
  · have hadd : s.addCredential row = { s with credentials := s.credentials.insert row } :=
      if_pos htaken
    have hadd' : (s.without b).addCredential row =
        { s.without b with credentials := (s.without b).credentials.insert row } :=
      if_pos (htakes.mpr htaken)
    rw [hadd, hadd']
    exact spares_insertCredential hs hrow htaken.2
  · have hadd : s.addCredential row = s := if_neg htaken
    have hadd' : (s.without b).addCredential row = s.without b := if_neg (mt htakes.mp htaken)
    rw [hadd, hadd']
    exact SparesUser.refl hs

/-- Other keys are found without the keys of a user. -/
theorem credentialByID_without (hcid : cid ∉ s.keyIds b) :
    (s.without b).credentialByID cid = s.credentialByID cid := by
  unfold Store.credentialByID
  congr 1
  refine (List.find?_filter ..).trans (List.find?_congr fun r hr => ?_)
  by_cases hid : r.2.credentialId = cid
  · have hrb : r.2.userId ≠ b := fun hrb => hcid (mem_keyIds_iff.mpr ⟨r.1, r.2, hr, hrb, hid⟩)
    simp [hid, hrb]
  · simp [hid]

/-- The key with an id, where it is one of a user's. -/
theorem ownedCredential_eq_some_iff {me : User} {r : CredentialRow} (hs : s.Constrained) :
    ownedCredential me s cid = some r ↔
      ∃ k, (k, r) ∈ s.credentials.rows ∧ r.userId = me.id ∧ r.credentialId = cid := by
  unfold ownedCredential Store.credentialByID
  rw [Option.filter_eq_some_iff, Option.map_eq_some_iff]
  constructor
  · rintro ⟨⟨r', hfind, rfl⟩, hme⟩
    exact ⟨r'.1, List.mem_of_find?_eq_some hfind, by simpa using hme,
      by simpa using List.find?_some hfind⟩
  · rintro ⟨k, hmem, hme, hid⟩
    refine ⟨?_, by simpa using hme⟩
    cases hfind : s.credentials.rows.find? fun r => r.2.credentialId = cid with
    | none => exact absurd (List.find?_eq_none.mp hfind (k, r) hmem) (by simp [hid])
    | some r' =>
      have hid' : r'.2.credentialId = cid := by simpa using List.find?_some hfind
      have heq := hs.eq_of_credentialId (List.mem_of_find?_eq_some hfind) hmem (hid'.trans hid.symm)
      exact ⟨r', rfl, congrArg Prod.snd heq⟩

theorem constrained_without (hs : s.Constrained) : (s.without b).Constrained :=
  constrained_of_sublist hs List.filter_sublist rfl

/-- A user's own keys are found without somebody else's. -/
theorem ownedCredential_without {me : User} (hs : s.Constrained) (hme : me.id ≠ b) :
    ownedCredential me (s.without b) cid = ownedCredential me s cid := by
  ext r
  rw [ownedCredential_eq_some_iff hs, ownedCredential_eq_some_iff (constrained_without hs)]
  refine exists_congr fun k => and_congr_left fun hr => ?_
  have hrb : r.userId ≠ b := hr.1 ▸ hme
  exact List.mem_filter.trans (and_iff_left (by simpa using hrb))

theorem mem_keyIds_of_ownedCredential {me : User} {r : CredentialRow} (hs : s.Constrained)
    (h : ownedCredential me s cid = some r) : r.credentialId ∈ s.keyIds me.id := by
  obtain ⟨k, hmem, hme, -⟩ := (ownedCredential_eq_some_iff hs).mp h
  exact mem_keyIds_iff.mpr ⟨k, r, hmem, hme, rfl⟩

/-- The wrapper of another key is found without the wrappers of a user. -/
theorem vaultWrapper_without (hcid : cid ∉ s.keyIds b) :
    (s.without b).vaultWrapper cid = s.vaultWrapper cid := by
  unfold Store.vaultWrapper
  refine (List.find?_filter ..).trans (List.find?_congr fun w _ => ?_)
  by_cases hid : w.credentialId = cid
  · simp [hid, hcid]
  · simp [hid]

/-- The wrappers of other keys. -/
theorem spares_deleteVaultWrapper (hs : s.Constrained) (hcid : cid ∉ s.keyIds b) :
    SparesUser b s (s.deleteVaultWrapper cid) ((s.without b).deleteVaultWrapper cid) := by
  have hkeep := @filter_keyIds s b (fun cid' => cid' ≠ cid) fun cid' hcid' =>
    decide_eq_true fun h => hcid (h ▸ hcid')
  have hcomm : ((s.without b).deleteVaultWrapper cid).wrappers =
      (s.deleteVaultWrapper cid).wrappers.filter fun w =>
        !((s.deleteVaultWrapper cid).keyIds b).contains w.credentialId := List.filter_comm _ _ _
  exact ⟨belongings_eq rfl rfl hkeep rfl rfl, ⟨hs.credentialIds, hs.userSeq, hs.userIds⟩,
    without_eq rfl rfl hcomm rfl rfl rfl rfl rfl rfl⟩

theorem spares_insertVaultWrapper {w : WrapperRow} (hs : s.Constrained) (hc : c ≠ b)
    (hw : w.credentialId ∈ s.keyIds c) :
    SparesUser b s (s.insertVaultWrapper w) ((s.without b).insertVaultWrapper w) := by
  have hnot : w.credentialId ∉ s.keyIds b := not_mem_keyIds hs hc hw
  -- the wrappers of the other user are for other credentials
  have hwrappers : (∀ w' ∈ (s.without b).wrappers, w'.credentialId ≠ w.credentialId) ↔
      ∀ w' ∈ s.wrappers, w'.credentialId ≠ w.credentialId := by
    refine ⟨fun h w' hw' hid => ?_, fun h w' hw' => h w' (List.mem_of_mem_filter hw')⟩
    exact h w' (List.mem_filter.mpr ⟨hw', by simpa [hid] using hnot⟩) hid
  have htakes : (s.without b).TakesWrapper w ↔ s.TakesWrapper w := by
    rw [Store.TakesWrapper, Store.TakesWrapper, credentialByID_without hnot, hwrappers]
  unfold Store.insertVaultWrapper
  by_cases htaken : s.TakesWrapper w
  · rw [if_pos htaken, if_pos (htakes.mpr htaken)]
    refine ⟨belongings_eq rfl rfl ?_ rfl rfl, ⟨hs.credentialIds, hs.userSeq, hs.userIds⟩,
      without_eq rfl rfl ?_ rfl rfl rfl rfl rfl rfl⟩
    · have hkeep : (s.wrappers ++ [w]).filter (fun w => (s.keyIds b).contains w.credentialId) =
          s.wrappers.filter fun w => (s.keyIds b).contains w.credentialId := by simp [hnot]
      exact hkeep
    · have hlast : s.wrappers.filter (fun w => !(s.keyIds b).contains w.credentialId) ++ [w] =
          (s.wrappers ++ [w]).filter fun w => !(s.keyIds b).contains w.credentialId := by
        simp [hnot]
      exact hlast
  · rw [if_neg htaken, if_neg (mt htakes.mp htaken)]
    exact SparesUser.refl hs

/-- The row of somebody else's key goes. -/
theorem spares_eraseCredential {r : CredentialRow} (hs : s.Constrained)
    (hget : s.credentials.get? id = some r) (hr : r.userId ≠ b) :
    SparesUser b s { s with credentials := s.credentials.erase id }
      { s.without b with credentials := (s.without b).credentials.erase id } := by
  have hpart : ((s.credentials.erase id).part fun r => r.userId = b) =
      s.credentials.part fun r => r.userId = b := by
    refine Table.part_erase fun row' hrow' => ?_
    obtain rfl := Option.some.inj (hget.symm.trans hrow')
    simpa using hr
  have hkeys : ({ s with credentials := s.credentials.erase id } : Store).keyIds b = s.keyIds b :=
    keyIds_of_part hpart
  have herase := @Table.eraseAll_erase _ s.credentials id fun r => r.userId = b
  refine ⟨belongings_eq rfl hpart ?_ rfl rfl, constrained_of_sublist hs List.filter_sublist rfl, ?_⟩
  · rw [hkeys]
  · refine without_eq rfl herase ?_ rfl rfl rfl rfl rfl rfl
    rw [hkeys]
    rfl

theorem spares_deleteCredential (hs : s.Constrained) (hc : c ≠ b) :
    SparesUser b s (s.deleteCredential id c) ((s.without b).deleteCredential id c) := by
  have hget : (s.without b).credentials.get? id =
      (s.credentials.get? id).filter fun r => !decide (r.userId = b) := Table.get?_eraseAll
  unfold Store.deleteCredential
  rw [hget]
  cases hrow : s.credentials.get? id with
  | none => exact SparesUser.refl hs
  | some r =>
    by_cases hrb : r.userId = b
    · have hrc : r.userId ≠ c := fun hrc => hc (hrc.symm.trans hrb)
      simp only [Option.filter_some, hrb, decide_true, Bool.not_true, Bool.false_eq_true, if_false,
        if_neg (Ne.symm hc)]
      exact SparesUser.refl hs
    · simp only [Option.filter_some, hrb, decide_false, Bool.not_false, if_true]
      by_cases hrc : r.userId = c
      · rw [if_pos hrc, if_pos hrc]
        have hcid : r.credentialId ∉ s.keyIds b :=
          not_mem_keyIds hs hc (mem_keyIds_iff.mpr ⟨id, r, Table.mem_rows_iff.mpr hrow, hrc, rfl⟩)
        -- the wrapper goes first, then the key
        refine (spares_deleteVaultWrapper hs hcid).trans fun hs₁ hwithout => ?_
        have herase := spares_eraseCredential hs₁ hrow hrb
        rw [← hwithout] at herase
        exact herase
      · rw [if_neg hrc, if_neg hrc]
        exact SparesUser.refl hs

end CertGuard
