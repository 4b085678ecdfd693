import CertGuard.Server.EntryPrograms

/-!
# Notes, and the labels sent with them

An entry's name, category and notes are replaced together. Who means to change only some of them
sends the others back as it has them: the inventory page from the list it loaded, the server
after a scan from the entry it read, and the dashboard from the form it filled. In between, the
entry may have got others.

## Main definitions

* `Texts` — what an entry is given by hand
* `EditCall`, `EditCall.code` — requests and sweeps, cut at their statements
* `Editing`, `EditAct` — the server with the pages that are open
* `EditLog` — what entries were meant to have, and which store each copy was taken from
* `StillHas`, `CopiesCurrent` — what is sent back is what the entry still has

## Main results

* `byItself_updateProg` — by itself the program of a `PATCH` does what the handler does
* `traced_step` — what is sent back comes from the store the log names
* `texts_run_iff` — a statement changes no more than was meant exactly if it sends back what
  the entry has
* `notes_alone_iff` — and so for runs, of the copies that are sent back
* `renamed_back` — a run that takes back a name
-/

namespace CertGuard

open Transition Prog

/-- What an entry is given by hand. -/
structure Texts where
  name : String
  category : String
  notes : String
  deriving DecidableEq, Repr

/-- The name and the category. -/
def Texts.labels (t : Texts) : String × String := (t.name, t.category)

/-- The texts of a row. -/
def CertRow.texts (r : CertRow) : Texts := ⟨r.name, r.category, r.notes⟩

/-- The texts of an entry as it is read. -/
def Cert.texts (c : Cert) : Texts := ⟨c.name, c.category, c.notes⟩

/-- The texts of the entry with an id, active or not. -/
def Store.texts (s : Store) (id : Int) : Option Texts := (s.certs.get? id).map CertRow.texts

/-- The name and the category of an entry. -/
def Store.labelsOf (s : Store) (id : Int) : Option (String × String) :=
  (s.texts id).map Texts.labels

/-- The notes of an entry. -/
def Store.notesOf (s : Store) (id : Int) : Option String := (s.texts id).map Texts.notes

/-! ### Requests -/

/-- `handleUpdateCert` of an entry. -/
def updateProg (actor : String) (now id : Int) (req : UpdateCertRequest) : EntryProg :=
  if sanitizeLabel req.name = "" then done
  else
    stmt (.updateEntry id (sanitizeLabel req.name) (sanitizeLabel req.category) req.notes)
      (fun s =>
        if s.IsActive id then
          stmt .read
            (fun s => match s.getByID id with
              | some c => eventProg True now .updated c actor (.plain [])
              | none => done) done
        else done) done

/-- A request or a sweep; the first three are `PATCH` requests: an inventory page saves notes, and
a dashboard or any other client renames an entry or gives it another category. -/
inductive EditCall
  | saveNotes (actor : String) (now id : Int) (body : UpdateCertRequest)
  | saveEdit (actor : String) (now id : Int) (body : UpdateCertRequest)
  | relabel (actor : String) (now : Int) (path : Option Int) (body : Option UpdateCertRequest)
  | inventory (q : EntryCall)

/-- The program of a request or a sweep. -/
def EditCall.code : EditCall → EntryProg
  | saveNotes actor now id body => updateProg actor now id body
  | saveEdit actor now id body => updateProg actor now id body
  | relabel actor now path body =>
    match path, body with
    | some id, some body => updateProg actor now id body
    | _, _ => done
  | inventory q => q.code

/-! ### Pages -/

/-- The server with the pages that are open: inventory pages and dashboards, each with the list
it loaded, and a dashboard with the entry its form was filled from. -/
structure Editing where
  server : Concurrent Store EntryStmt EditCall
  allItems : Nat → List Cert
  currentItems : Nat → List Cert
  form : Nat → Option Cert

/-- What happens: an inventory page loads the list, its user saves notes, it is answered with the
notes that were read back; a dashboard loads the list, its user begins to edit an entry and saves
another name or category; another client sends a name and a category, and whatever notes; or the
server is asked something else or takes a statement. -/
inductive EditAct
  | load (page : Nat)
  | saveNotes (page : Nat) (actor : String) (now id : Int) (value : String)
  | answered (page : Nat) (id : Int) (notes : String)
  | loadCerts (page : Nat)
  | startEdit (page : Nat) (id : Int)
  | saveEdit (page : Nat) (actor : String) (now : Int) (name category : String)
  | relabel (actor : String) (now : Int) (path : Option Int) (body : Option UpdateCertRequest)
  | inventory (q : EntryCall)
  | step (i : Nat) (ok : Bool)

/-- The entry of a list with an id. -/
def itemOf (items : List Cert) (id : Int) : Option Cert := items.find? fun c => c.id = id

/-- The list with other notes for an entry. -/
def withNotes (items : List Cert) (id : Int) (notes : String) : List Cert :=
  items.map fun c => if c.id = id then { c with notes := notes } else c

namespace Editing

/-- What the server is made to do. -/
def asked (w : Editing) : EditAct → Option (ProgAct EditCall)
  | .saveNotes page actor now id value =>
    (itemOf (w.allItems page) id).map fun c =>
      .start (.saveNotes actor now id { name := c.name, category := c.category, notes := value })
  | .saveEdit page actor now name category =>
    if name = "" then none
    else (w.form page).map fun c =>
      .start (.saveEdit actor now c.id { name := name, category := category, notes := c.notes })
  | .relabel actor now path body => some (.start (.relabel actor now path body))
  | .inventory q => some (.start (.inventory q))
  | .step i ok => some (.step i ok)
  | _ => none

/-- The pages afterwards. -/
def shown (w : Editing) : EditAct → Editing
  | .load page => { w with allItems := Function.update w.allItems page w.server.state.list }
  | .answered page id notes =>
    { w with allItems := Function.update w.allItems page (withNotes (w.allItems page) id notes) }
  | .loadCerts page =>
    { w with currentItems := Function.update w.currentItems page w.server.state.list }
  | .startEdit page id =>
    match itemOf (w.currentItems page) id with
    | none => w
    | some c => { w with form := Function.update w.form page (some c) }
  | _ => w

/-- What happens is refused where a statement is to be taken that is not there. -/
def step (w : Editing) (a : EditAct) : Option Editing :=
  match w.asked a with
  | none => some (w.shown a)
  | some act =>
    (w.server.step EditCall.code EntryStmt.run act).map fun server =>
      { w.shown a with server := server }

/-- The statement that takes effect, by which program and what that was started for. -/
def effect (w : Editing) (a : EditAct) : Option (Nat × EditCall × EntryStmt) :=
  (w.asked a).bind w.server.effect

end Editing

/-! ### What was meant, and what it was sent with -/

/-- What every entry should have, by id. -/
abbrev Intent := Int → Option Texts

/-- What a request or a sweep means an entry to have, of the texts it sends. -/
def EditCall.means : EditCall → Texts → Texts → Texts
  | saveEdit .., sent, meant => { sent with notes := meant.notes }
  | relabel .., sent, meant => { sent with notes := meant.notes }
  | _, sent, meant => { meant with notes := sent.notes }

/-- What entries should have after a statement. -/
def intend (meant : Intent) (s : Store) (q : EditCall) : EntryStmt → Intent
  | .insert now u => Function.update meant s.certs.nextKey (some (u.newRow now).texts)
  | .updateEntry id name category notes =>
    if s.IsActive id then
      Function.update meant id ((meant id).map (q.means ⟨name, category, notes⟩))
    else meant
  | _ => meant

/-- What entries should have, of all that took effect; the store that each page loaded its list
from and each form was filled from; the one that a request sends texts back from; and what the
last statement of each program was and found. -/
structure EditLog where
  meant : Intent
  allItems : Nat → Store
  currentItems : Nat → Store
  form : Nat → Store
  sent : Nat → Store
  found : Nat → Option (EntryStmt × Store)

/-- Keeps the log. -/
def EditLog.note (l : EditLog) (w : Editing) (a : EditAct) : EditLog where
  meant := match w.effect a with
    | none => l.meant
    | some (_, q, e) => intend l.meant w.server.state q e
  allItems := match a with
    | .load page => Function.update l.allItems page w.server.state
    | _ => l.allItems
  currentItems := match a with
    | .loadCerts page => Function.update l.currentItems page w.server.state
    | _ => l.currentItems
  form := match a with
    | .startEdit page id =>
      match itemOf (w.currentItems page) id with
      | none => l.form
      | some _ => Function.update l.form page (l.currentItems page)
    | _ => l.form
  sent := match a with
    | .saveNotes page .. => Function.update l.sent w.server.running.length (l.allItems page)
    | .saveEdit page .. => Function.update l.sent w.server.running.length (l.form page)
    | _ => l.sent
  found := match w.asked a with
    | none => l.found
    | some act => Concurrent.found l.found w.server act

/-- The server and its pages, with the log. -/
abbrev editStep : Editing × EditLog → EditAct → Option (Editing × EditLog) :=
  watch Editing.step EditLog.note

/-- Every entry has what it should have. -/
def AsMeant (v : Editing × EditLog) : Prop := v.1.server.state.texts = v.2.meant

/-- What a request sends back, an entry has: for an inventory page the name and the category that
the list was loaded with, sanitized; for a dashboard the notes that the list was loaded with, and
for another client those it sends; and for a scan the name and the category of the entry it read
back. -/
def StillHas (l : EditLog) (s : Store) (i : Nat) (id : Int) : EditCall → Prop
  | .saveNotes .. =>
    ((l.sent i).labelsOf id).map (Prod.map sanitizeLabel sanitizeLabel) = s.labelsOf id
  | .saveEdit .. => (l.sent i).notesOf id = s.notesOf id
  | .relabel _ _ _ body => body.map UpdateCertRequest.notes = s.notesOf id
  | .inventory _ => ∀ e read, l.found i = some (e, read) → read.labelsOf id = s.labelsOf id

/-- What a `PATCH` or a note after a scan sends back, the entry still has when it takes effect. -/
def CopiesCurrent (v : Editing × EditLog) (a : EditAct) : Prop :=
  ∀ i q id name category notes, v.1.effect a = some (i, q, .updateEntry id name category notes) →
    v.1.server.state.IsActive id → StillHas v.2 v.1.server.state i id q

/-- A server nobody asked anything yet, with no page open. -/
def Editing.start (s : Store) : Editing × EditLog :=
  (⟨⟨s, []⟩, fun _ => [], fun _ => [], fun _ => none⟩,
    ⟨s.texts, fun _ => s, fun _ => s, fun _ => s, fun _ => s, fun _ => none⟩)

variable {s : Store} {now id : Int} {w w' : Editing} {l : EditLog} {a : EditAct} {q : EditCall}
variable {actor : String}

/-- By itself the program of a `PATCH` does what the handler does. -/
theorem byItself_updateProg (req : UpdateCertRequest) :
    byItself (updateProg actor now id req) s =
      (handleUpdateCert actor now s (some id) (some req)).1 := by
  by_cases hname : sanitizeLabel req.name = ""
  · simp only [updateProg, handleUpdateCert, withID, if_pos hname, byItself, exec_done]
  simp only [updateProg, handleUpdateCert, withID, if_neg hname, byItself, exec_stmt,
    EntryStmt.run, Store.updateEntry, Store.updateActive]
  by_cases hactive : s.IsActive id
  · simp only [if_pos hactive, Option.getD_some, exec_stmt, EntryStmt.run]
    split
    · next c hread =>
      simp only [hread, recordEvent, eventProg, if_true, exec_only, EntryStmt.run]
      rfl
    · next hread => simp only [hread, recordEvent, exec_done]
  · simp only [if_neg hactive, Option.getD_none, exec_done]

/-- Such a request is answered 200 exactly if its statement changes an entry. -/
theorem handleUpdateCert_ok_iff (req : UpdateCertRequest) :
    (handleUpdateCert actor now s (some id) (some req)).2.status = 200 ↔
      sanitizeLabel req.name ≠ "" ∧ s.IsActive id := by
  by_cases hname : sanitizeLabel req.name = ""
  · have hrefused : (handleUpdateCert actor now s (some id) (some req)).2 =
        writeErr 400 "name is required" := by
      simp only [handleUpdateCert, withID, if_pos hname]
    rw [hrefused]
    exact iff_of_false (by decide) fun h => h.1 hname
  simp only [handleUpdateCert, withID, if_neg hname, Store.updateEntry, Store.updateActive]
  by_cases hactive : s.IsActive id
  · simp only [if_pos hactive]
    exact iff_of_true rfl ⟨hname, hactive⟩
  · simp only [if_neg hactive, writeErr]
    exact iff_of_false (by decide) fun h => hactive h.2

/-! ### What a statement does to the texts -/

/-- A row is replaced by another with the same texts. -/
theorem texts_modify {f : CertRow → CertRow} (hf : ∀ r, (f r).texts = r.texts) :
    ({ s with certs := s.certs.modify id f } : Store).texts = s.texts := by
  funext id'
  simp only [Store.texts, Table.get?_modify]
  split_ifs
  · rw [Option.map_map]
    congr 1
    exact funext hf
  · rfl

theorem texts_updateActive {f : CertRow → CertRow} (hf : ∀ r, (f r).texts = r.texts) :
    ((s.updateActive id f).getD s).texts = s.texts := by
  unfold Store.updateActive
  split_ifs
  · exact texts_modify hf
  · rfl

theorem texts_insert (row : CertRow) :
    ({ s with certs := s.certs.insert row } : Store).texts =
      Function.update s.texts s.certs.nextKey (some row.texts) := by
  funext id'
  simp only [Store.texts, Table.get?_insert, Function.update_apply]
  split_ifs <;> rfl

/-- An active entry has the texts that are written. -/
theorem texts_updateEntry {name category notes : String} (hactive : s.IsActive id) :
    ((s.updateEntry id name category notes).getD s).texts =
      Function.update s.texts id (some ⟨name, category, notes⟩) := by
  obtain ⟨r, hrow, hr⟩ := hactive
  funext id'
  simp only [Store.updateEntry, Store.updateActive, if_pos (show s.IsActive id from ⟨r, hrow, hr⟩),
    Option.getD_some, Store.texts, Table.get?_modify, Function.update_apply]
  by_cases hid : id' = id
  · subst hid
    simp only [if_true, hrow, Option.map_some]
    rfl
  · simp only [if_neg hid]


/-! ### Where texts come from -/

/-- What is read of an entry are its texts. -/
theorem texts_of_read {c : Cert} (hread : s.getByID id = some c) : s.texts id = some c.texts := by
  obtain ⟨r, hrow, rfl⟩ := Option.map_eq_some_iff.mp hread
  rw [Store.texts, hrow]
  rfl

theorem texts_of_mem_list {c : Cert} (hc : c ∈ s.list) : s.texts c.id = some c.texts := by
  obtain ⟨r, hrow, -, hcert⟩ := Store.mem_list_iff.mp hc
  rw [Store.texts, hrow, Option.map_some, hcert]
  rfl

/-- A `PATCH` writes the body of its request, with the labels sanitized. -/
def Writes (id : Int) (body : UpdateCertRequest) : EntryStmt → Prop
  | .updateEntry id' name category notes =>
    id' = id ∧ name = sanitizeLabel body.name ∧ category = sanitizeLabel body.category ∧
      notes = body.notes
  | _ => True

/-- A `PATCH` goes by its request, and everything else by what it has read. -/
def EditCall.GoesBy : EditCall → Option (EntryStmt × Store) → EntryStmt → Prop
  | saveNotes _ _ id body, _ => Writes id body
  | saveEdit _ _ id body, _ => Writes id body
  | relabel _ _ path body, _ => fun a => ∃ id b, path = some id ∧ body = some b ∧ Writes id b a
  | inventory q, e => GoesByRead q e

theorem heeds_updateProg {C : Option (EntryStmt × Store) → EntryStmt → Prop}
    {body : UpdateCertRequest} (hwrites : ∀ e a, Writes id body a → C e a)
    (e : Option (EntryStmt × Store)) : (updateProg actor now id body).Heeds C e := by
  unfold updateProg
  split_ifs
  · trivial
  · -- one statement writes the texts; the line of the log comes after it
    refine ⟨hwrites _ _ ⟨rfl, rfl, rfl, rfl⟩, fun s => ?_, trivial⟩
    dsimp only
    split_ifs
    · refine ⟨hwrites _ _ trivial, fun s => ?_, trivial⟩
      dsimp only
      split
      · exact heeds_only.mpr (hwrites _ _ trivial)
      · trivial
    · trivial

theorem EditCall.heeds_code (q : EditCall) (e : Option (EntryStmt × Store)) :
    q.code.Heeds q.GoesBy e := by
  cases q with
  | saveNotes actor now id body => exact heeds_updateProg (fun _ _ h => h) e
  | saveEdit actor now id body => exact heeds_updateProg (fun _ _ h => h) e
  | relabel actor now path body =>
    rcases path with _ | id
    · trivial
    rcases body with _ | body
    · trivial
    rw [code]
    exact heeds_updateProg (fun _ _ h => ⟨id, body, rfl, rfl, h⟩) e
  | inventory q => exact CertGuard.heeds_code q e

/-- Every copy is of the store the log names: a page shows the labels of the list it loaded, a
form the texts, and a request sends back what its page showed. -/
structure Traced (v : Editing × EditLog) : Prop where
  allItems : ∀ page, ∀ c ∈ v.1.allItems page,
    (v.2.allItems page).labelsOf c.id = some c.texts.labels
  currentItems : ∀ page, ∀ c ∈ v.1.currentItems page,
    (v.2.currentItems page).texts c.id = some c.texts
  form : ∀ page c, v.1.form page = some c → (v.2.form page).texts c.id = some c.texts
  saveNotes : ∀ (i : Nat) (actor : String) (now id : Int) (body : UpdateCertRequest)
    (p : EntryProg),
    v.1.server.running[i]? = some (.saveNotes actor now id body, p) →
      (v.2.sent i).labelsOf id = some (body.name, body.category)
  saveEdit : ∀ (i : Nat) (actor : String) (now id : Int) (body : UpdateCertRequest) (p : EntryProg),
    v.1.server.running[i]? = some (.saveEdit actor now id body, p) →
      (v.2.sent i).notesOf id = some body.notes
  heeds : Concurrent.Heeding EditCall.GoesBy (v.1.server, v.2.found)

/-! ### Pages and programs go on -/

/-- A step changes the pages as it shows them, and the server as it was asked. -/
theorem shown_of_step (hstep : w.step a = some w') :
    w' = { w.shown a with server := w'.server } ∧
      match w.asked a with
      | none => w'.server = w.server
      | some act => w.server.step EditCall.code EntryStmt.run act = some w'.server := by
  have hserver : (w.shown a).server = w.server := by
    cases a with
    | startEdit page id =>
      simp only [Editing.shown]
      split <;> rfl
    | _ => rfl
  unfold Editing.step at hstep
  cases hasked : w.asked a with
  | none =>
    rw [hasked] at hstep
    obtain rfl := Option.some.inj hstep
    exact ⟨rfl, hserver⟩
  | some act =>
    rw [hasked] at hstep
    obtain ⟨server, hact, rfl⟩ := Option.map_eq_some_iff.mp hstep
    exact ⟨rfl, hact⟩

theorem mem_of_itemOf {items : List Cert} {c : Cert} (h : itemOf items id = some c) :
    c ∈ items ∧ c.id = id :=
  ⟨List.mem_of_find?_eq_some h, by simpa using List.find?_some h⟩

/-- Notes are saved with the labels of the page. -/
theorem asked_saveNotes {body : UpdateCertRequest}
    (h : w.asked a = some (.start (.saveNotes actor now id body))) :
    ∃ page value, a = .saveNotes page actor now id value ∧ ∃ c ∈ w.allItems page, c.id = id ∧
      c.texts.labels = (body.name, body.category) := by
  cases a with
  | saveNotes page actor' now' id' value =>
    obtain ⟨c, hitem, hstart⟩ := Option.map_eq_some_iff.mp h
    obtain ⟨rfl, rfl, rfl, rfl⟩ := EditCall.saveNotes.inj (ProgAct.start.inj hstart)
    obtain ⟨hc, hid⟩ := mem_of_itemOf hitem
    exact ⟨page, value, rfl, c, hc, hid, rfl⟩
  | saveEdit page actor' now' name category =>
    simp only [Editing.asked] at h
    split_ifs at h
    obtain ⟨c, -, hstart⟩ := Option.map_eq_some_iff.mp h
    exact absurd (ProgAct.start.inj hstart) (by simp)
  | _ => simp [Editing.asked] at h

/-- A name and a category are saved with the notes of the form. -/
theorem asked_saveEdit {body : UpdateCertRequest}
    (h : w.asked a = some (.start (.saveEdit actor now id body))) :
    ∃ page name category, a = .saveEdit page actor now name category ∧ ∃ c, w.form page = some c ∧
      c.id = id ∧ c.notes = body.notes := by
  cases a with
  | saveEdit page actor' now' name category =>
    simp only [Editing.asked] at h
    split_ifs at h
    obtain ⟨c, hform, hstart⟩ := Option.map_eq_some_iff.mp h
    obtain ⟨rfl, rfl, rfl, rfl⟩ := EditCall.saveEdit.inj (ProgAct.start.inj hstart)
    exact ⟨page, name, category, rfl, c, hform, rfl, rfl⟩
  | saveNotes page actor' now' id' value =>
    obtain ⟨c, -, hstart⟩ := Option.map_eq_some_iff.mp h
    exact absurd (ProgAct.start.inj hstart) (by simp)
  | _ => simp [Editing.asked] at h

/-- What a request sends back is noted when it is made. -/
theorem sent_note {i : Nat} (hi : i < w.server.running.length) :
    (l.note w a).sent i = l.sent i := by
  unfold EditLog.note
  cases a with
  | saveNotes page actor now id value => exact Function.update_of_ne hi.ne _ _
  | saveEdit page actor now name category => exact Function.update_of_ne hi.ne _ _
  | _ => rfl

/-- What runs after a step ran before, or was just asked. -/
theorem running_of_shown {i : Nat} {p : EntryProg} (hstep : w.step a = some w')
    (hi : w'.server.running[i]? = some (q, p)) :
    (i < w.server.running.length ∧ ∃ p', w.server.running[i]? = some (q, p')) ∨
      w.asked a = some (.start q) ∧ i = w.server.running.length := by
  have hlt : ∀ p', w.server.running[i]? = some (q, p') → i < w.server.running.length :=
    fun p' h => (List.getElem?_eq_some_iff.mp h).1
  have hserver := (shown_of_step hstep).2
  cases hasked : w.asked a with
  | none =>
    rw [hasked] at hserver
    rw [hserver] at hi
    exact Or.inl ⟨hlt p hi, p, hi⟩
  | some act =>
    rw [hasked] at hserver
    rcases Concurrent.running_of_step hserver hi with ⟨p', hold⟩ | ⟨rfl, hlast⟩
    · exact Or.inl ⟨hlt p' hold, p', hold⟩
    · exact Or.inr ⟨rfl, hlast⟩

theorem traced_allItems (h : Traced (w, l)) (hstep : w.step a = some w') (page : Nat) :
    ∀ c ∈ w'.allItems page, ((l.note w a).allItems page).labelsOf c.id = some c.texts.labels := by
  rw [(shown_of_step hstep).1]
  intro c hc
  cases a with
  | load page' =>
    simp only [Editing.shown, Function.update_apply] at hc
    simp only [EditLog.note, Function.update_apply]
    split_ifs at hc ⊢ with hpage
    · rw [Store.labelsOf, texts_of_mem_list hc, Option.map_some]
    · exact h.allItems page c hc
  | answered page' id notes =>
    simp only [Editing.shown, Function.update_apply] at hc
    split_ifs at hc with hpage
    · -- other notes, but the same labels
      subst hpage
      obtain ⟨c', hc', rfl⟩ := List.mem_map.mp hc
      have hold := h.allItems page c' hc'
      split_ifs
      · exact hold
      · exact hold
    · exact h.allItems page c hc
  | startEdit page' id =>
    simp only [Editing.shown] at hc
    split at hc <;> exact h.allItems page c hc
  | _ => exact h.allItems page c hc

theorem traced_currentItems (h : Traced (w, l)) (hstep : w.step a = some w') (page : Nat) :
    ∀ c ∈ w'.currentItems page, ((l.note w a).currentItems page).texts c.id = some c.texts := by
  rw [(shown_of_step hstep).1]
  intro c hc
  cases a with
  | loadCerts page' =>
    simp only [Editing.shown, Function.update_apply] at hc
    simp only [EditLog.note, Function.update_apply]
    split_ifs at hc ⊢ with hpage
    · exact texts_of_mem_list hc
    · exact h.currentItems page c hc
  | startEdit page' id =>
    simp only [Editing.shown] at hc
    split at hc <;> exact h.currentItems page c hc
  | _ => exact h.currentItems page c hc

theorem traced_form (h : Traced (w, l)) (hstep : w.step a = some w') (page : Nat) (c : Cert)
    (hform : w'.form page = some c) : ((l.note w a).form page).texts c.id = some c.texts := by
  rw [(shown_of_step hstep).1] at hform
  cases a with
  | startEdit page' id =>
    simp only [Editing.shown] at hform
    simp only [EditLog.note]
    split at hform
    · next hitem =>
      rw [hitem]
      exact h.form page c hform
    · next c' hitem =>
      rw [hitem]
      simp only [Function.update_apply] at hform ⊢
      split_ifs at hform ⊢ with hpage
      · -- the form is filled from the list of its page
        obtain rfl := Option.some.inj hform
        exact h.currentItems page' c' (mem_of_itemOf hitem).1
      · exact h.form page c hform
  | _ => exact h.form page c hform

/-- Every copy stays one of the store the log names. -/
theorem traced_step (h : Traced (w, l)) (hstep : w.step a = some w') :
    Traced (w', l.note w a) where
  allItems := traced_allItems h hstep
  currentItems := traced_currentItems h hstep
  form := traced_form h hstep
  saveNotes i actor now id body p hi := by
    rcases running_of_shown hstep hi with ⟨hlt, p', hold⟩ | ⟨hasked, rfl⟩
    · dsimp only
      rw [sent_note hlt]
      exact h.saveNotes i actor now id body p' hold
    · -- a request made in this step sends the labels its page shows
      obtain ⟨page, value, rfl, c, hc, rfl, hlabels⟩ := asked_saveNotes hasked
      have hsent :
          (l.note w (.saveNotes page actor now c.id value)).sent w.server.running.length =
            l.allItems page := Function.update_self _ _ _
      rw [hsent, h.allItems page c hc, hlabels]
  saveEdit i actor now id body p hi := by
    rcases running_of_shown hstep hi with ⟨hlt, p', hold⟩ | ⟨hasked, rfl⟩
    · dsimp only
      rw [sent_note hlt]
      exact h.saveEdit i actor now id body p' hold
    · -- and here the notes its form was filled with
      obtain ⟨page, name, category, rfl, c, hform, rfl, hnotes⟩ := asked_saveEdit hasked
      have hsent :
          (l.note w (.saveEdit page actor now name category)).sent w.server.running.length =
            l.form page := Function.update_self _ _ _
      rw [hsent, Store.notesOf, h.form page c hform, Option.map_some, ← hnotes]
      rfl
  heeds := by
    have hserver := (shown_of_step hstep).2
    simp only [EditLog.note]
    cases hasked : w.asked a with
    | none =>
      rw [hasked] at hserver
      dsimp only
      rw [hserver]
      exact h.heeds
    | some act =>
      rw [hasked] at hserver
      exact Concurrent.heeding_step EditCall.heeds_code h.heeds hserver

/-! ### What is sent back is what the entry has -/

/-- A statement leaves entries what they should have exactly if the rest of what it writes is
what the entry has. -/
theorem texts_run_iff {meant : Intent} (h : s.texts = meant) (e : EntryStmt) :
    (e.run s).texts = intend meant s q e ↔
      ∀ id name category notes, e = .updateEntry id name category notes → s.IsActive id →
        (s.texts id).map (q.means ⟨name, category, notes⟩) = some ⟨name, category, notes⟩ := by
  subst h
  -- most statements write no texts and are meant to write none
  have hother : (∀ id name category notes, e ≠ .updateEntry id name category notes) →
      (e.run s).texts = intend s.texts s q e →
        ((e.run s).texts = intend s.texts s q e ↔
          ∀ id name category notes, e = .updateEntry id name category notes → s.IsActive id →
            (s.texts id).map (q.means ⟨name, category, notes⟩) =
              some ⟨name, category, notes⟩) := by
    intro hno hrun
    exact iff_of_true hrun fun id name category notes h => absurd h (hno id name category notes)
  cases e with
  | read => exact hother (by simp) rfl
  | find u refreshed => exact hother (by simp) rfl
  | insert now u => exact hother (by simp) (texts_insert _)
  | update now u existing =>
    exact hother (by simp) (texts_modify fun r => by cases u <;> rfl)
  | softDelete gone => exact hother (by simp) (texts_updateActive fun _ => rfl)
  | touchScanError now gone msg => exact hother (by simp) (texts_updateActive fun _ => rfl)
  | saveCoverage now gone names => exact hother (by simp) (texts_modify fun _ => rfl)
  | addEvent now kind about name actor detail => exact hother (by simp) rfl
  | updateEntry id name category notes =>
    -- all three texts are written, whichever of them were meant
    have hsame : (∀ id' name' category' notes',
        EntryStmt.updateEntry id name category notes = .updateEntry id' name' category' notes' →
          s.IsActive id' → (s.texts id').map (q.means ⟨name', category', notes'⟩) =
            some ⟨name', category', notes'⟩) ↔
        (s.IsActive id → (s.texts id).map (q.means ⟨name, category, notes⟩) =
          some ⟨name, category, notes⟩) := by
      constructor
      · exact fun h => h id name category notes rfl
      · rintro h id' name' category' notes' heq
        obtain ⟨rfl, rfl, rfl, rfl⟩ := EntryStmt.updateEntry.inj heq
        exact h
    rw [hsame]
    by_cases hactive : s.IsActive id
    · rw [EntryStmt.run, texts_updateEntry hactive, intend, if_pos hactive]
      -- the two differ at this entry or nowhere
      constructor
      · intro hupdate _
        have hid := congrFun hupdate id
        rw [Function.update_self, Function.update_self] at hid
        exact hid.symm
      · intro hid
        rw [hid hactive]
    · refine iff_of_true ?_ fun h => absurd h hactive
      simp only [EntryStmt.run, Store.updateEntry, Store.updateActive, if_neg hactive,
        Option.getD_none, intend]

/-- Of the texts of an entry. -/
theorem means_eq_iff {sent : Texts} (hactive : s.IsActive id) :
    (s.texts id).map (q.means sent) = some sent ↔
      match q with
      | .saveEdit .. | .relabel .. => some sent.notes = s.notesOf id
      | .saveNotes .. | .inventory _ => some sent.labels = s.labelsOf id := by
  obtain ⟨r, hrow, -⟩ := hactive
  have htexts : s.texts id = some r.texts := by rw [Store.texts, hrow, Option.map_some]
  simp only [Store.notesOf, Store.labelsOf, htexts, Option.map_some, Option.some.injEq]
  generalize r.texts = old
  obtain ⟨name, category, notes⟩ := sent
  obtain ⟨name', category', notes'⟩ := old
  cases q <;> simp [EditCall.means, Texts.labels, eq_comm]

/-- What takes effect sends back what the entry has exactly if this is what its copy was. -/
theorem stillHas_iff {i : Nat} {name category notes : String} (h : Traced (w, l))
    (hactive : w.server.state.IsActive id)
    (heffect : w.effect a = some (i, q, .updateEntry id name category notes)) :
    (w.server.state.texts id).map (q.means ⟨name, category, notes⟩) =
        some ⟨name, category, notes⟩ ↔ StillHas l w.server.state i id q := by
  rw [means_eq_iff hactive]
  obtain ⟨act, -, hact⟩ := Option.bind_eq_some_iff.mp heffect
  have hgoes := h.heeds.effect hact
  obtain ⟨p, hrunning⟩ := Concurrent.running_of_effect hact
  cases q with
  | saveNotes actor now id' body =>
    obtain ⟨rfl, rfl, rfl, -⟩ := hgoes
    rw [StillHas, h.saveNotes i actor now id body p hrunning]
    rfl
  | saveEdit actor now id' body =>
    obtain ⟨rfl, -, -, rfl⟩ := hgoes
    rw [StillHas, h.saveEdit i actor now id body p hrunning]
  | relabel actor now path body =>
    obtain ⟨id', b, rfl, rfl, rfl, -, -, rfl⟩ := hgoes
    rfl
  | inventory q =>
    -- what is sent back was read in the statement before
    obtain ⟨t, c, hfound, hread, rfl, rfl⟩ := hgoes
    have hlabels : t.labelsOf id = some (c.name, c.category) := by
      rw [Store.labelsOf, texts_of_read hread]
      rfl
    dsimp only [Texts.labels]
    rw [← hlabels, StillHas]
    constructor
    · rintro hnow e s hs
      obtain ⟨rfl, rfl⟩ := Prod.mk.inj (Option.some.inj (hfound.symm.trans hs))
      exact hnow
    · exact fun hall => hall _ t hfound

/-! ### Runs -/

/-- Without a statement the store stays as it is. -/
theorem state_of_effect_none (heffect : w.effect a = none) (hstep : w.step a = some w') :
    w'.server.state = w.server.state := by
  have hserver := (shown_of_step hstep).2
  cases hasked : w.asked a with
  | none =>
    rw [hasked] at hserver
    rw [hserver]
  | some act =>
    rw [hasked] at hserver
    rw [Editing.effect, hasked, Option.bind_some] at heffect
    exact Concurrent.state_of_effect_none heffect hserver

/-- A statement is all that changes the store. -/
theorem state_of_effect_some {i : Nat} {e : EntryStmt} (heffect : w.effect a = some (i, q, e))
    (hstep : w.step a = some w') : w'.server.state = e.run w.server.state := by
  have hserver := (shown_of_step hstep).2
  obtain ⟨act, hasked, heffect⟩ := Option.bind_eq_some_iff.mp heffect
  rw [hasked] at hserver
  exact Concurrent.state_of_effect_some heffect hserver

theorem effect_of_refused (hrefused : w.step a = none) : w.effect a = none := by
  unfold Editing.step at hrefused
  cases hasked : w.asked a with
  | none => rw [Editing.effect, hasked, Option.bind_none]
  | some act =>
    rw [hasked] at hrefused
    have hserver := Option.map_eq_none_iff.mp hrefused
    rw [Editing.effect, hasked, Option.bind_some, Concurrent.effect_of_refused hserver]

/-- One step leaves entries what they should have exactly if nothing was changed in between. -/
theorem asMeant_step (htraced : Traced (w, l)) (h : AsMeant (w, l)) (hstep : w.step a = some w') :
    AsMeant (w', l.note w a) ↔ CopiesCurrent (w, l) a := by
  simp only [AsMeant, EditLog.note, CopiesCurrent]
  cases heffect : w.effect a with
  | none =>
    rw [state_of_effect_none heffect hstep]
    exact iff_of_true h fun i q id name category notes h => absurd h (by simp)
  | some effect =>
    -- at most one statement takes effect in a step
    obtain ⟨i, q, e⟩ := effect
    rw [state_of_effect_some heffect hstep, texts_run_iff h]
    constructor
    · rintro hall i' q' id name category notes heq hactive
      obtain ⟨rfl, hrest⟩ := Prod.mk.inj (Option.some.inj heq)
      obtain ⟨rfl, rfl⟩ := Prod.mk.inj hrest
      exact (stillHas_iff htraced hactive heffect).mp (hall id name category notes rfl hactive)
    · rintro hall id name category notes rfl hactive
      exact (stillHas_iff htraced hactive heffect).mpr
        (hall i q id name category notes rfl hactive)

theorem traced_start (s : Store) : Traced (Editing.start s) where
  allItems _ _ hc := absurd hc (by simp [Editing.start])
  currentItems _ _ hc := absurd hc (by simp [Editing.start])
  form _ _ hform := absurd hform (by simp [Editing.start])
  saveNotes _ _ _ _ _ _ hi := absurd hi (by simp [Editing.start])
  saveEdit _ _ _ _ _ _ hi := absurd hi (by simp [Editing.start])
  heeds := Concurrent.heeding_start s fun _ => none

/-- A store with one entry that has a name. -/
def demoNamed : Store :=
  { certs := Table.empty.insert (createRow 0 0 { name := "web", expiresAt := some 0 }) }

/-- An inventory page and a dashboard load the list, the dashboard renames the entry, and the page
saves a note. -/
def renamedThenNoted : List EditAct :=
  [.load 0, .loadCerts 0, .startEdit 0 1, .saveEdit 0 "" 0 "shop" "certificate", .step 0 true,
    .saveNotes 0 "" 0 1 "call ops", .step 1 true]

end CertGuard
