import CertGuard.Lib.Batch
import CertGuard.Lib.TransitionRun

/-!
# The self-signed pair

`EnsureCert` writes a certificate and its private key to two files, unless there are both. Each
file is created first and then written, so a call that is cut short may leave both without a pair
in them, and every later call leaves them as they are.

## Main definitions

* `CertFiles` — the two files
* `ensureCert` — `EnsureCert`, cut short anywhere
* `CertFiles.Usable` — the key belongs to the certificate
* `WritesWhole` — a call does not leave two files unless it wrote the pair

## Main results

* `ensuresUsable_iff` — the files for which `EnsureCert` keeps its promise
* `pair_usable_iff` — it does after a run of calls and deletions exactly if every call writes the
  pair whole
* `pair_unusable` — a run that leaves a file empty for good
-/

namespace CertGuard

open Transition

/-! ### The files -/

/-- A block that is written to a file. -/
inductive PemBlock
  /-- A certificate of a private key. -/
  | certificate (priv : Nat) (hosts : String) (now : Int)
  | ecPrivateKey (priv : Nat)
  deriving DecidableEq, Repr

/-- The content of a regular file. -/
inductive PemText
  /-- The file was created and nothing written to it yet. -/
  | empty
  /-- Some of the text of a block, but not all. -/
  | part (block : PemBlock)
  | whole (block : PemBlock)
  deriving DecidableEq, Repr

/-- What is at a path. -/
inductive PathEntry
  | absent
  | dir
  | file (text : PemText)
  deriving DecidableEq, Repr

/-- A directory is no file. -/
def PathEntry.fileExists : PathEntry → Bool
  | file _ => true
  | _ => false

/-- Which of the two files. -/
inductive CertSide
  | cert
  | key
  deriving DecidableEq, Repr

/-- What is at `certPath` and at `keyPath`. -/
structure CertFiles where
  cert : PathEntry := .absent
  key : PathEntry := .absent
  deriving DecidableEq, Repr

namespace CertFiles

/-- What is at a path. -/
def entry (d : CertFiles) : CertSide → PathEntry
  | .cert => d.cert
  | .key => d.key

/-- The files after a change at a path. -/
def put (d : CertFiles) (side : CertSide) (e : PathEntry) : CertFiles :=
  match side with
  | .cert => { d with cert := e }
  | .key => { d with key := e }

/-- Both files are there. -/
def Both (d : CertFiles) : Prop := d.cert.fileExists = true ∧ d.key.fileExists = true

instance (d : CertFiles) : Decidable d.Both := inferInstanceAs (Decidable (_ ∧ _))

/-- Both files hold a complete block, and the key belongs to the certificate. -/
def Usable (d : CertFiles) : Prop :=
  ∃ priv hosts now, d.cert = .file (.whole (.certificate priv hosts now)) ∧
    d.key = .file (.whole (.ecPrivateKey priv))

end CertFiles

/-! ### Writing them -/

/-- `OpenFile`, which creates the file or empties it. -/
def openTrunc (side : CertSide) (d : CertFiles) : Option CertFiles :=
  if d.entry side = .dir then none else some (d.put side (.file .empty))

/-- Some of the text is written, as `pem.Encode` writes it in pieces. -/
def writePart (side : CertSide) (block : PemBlock) (d : CertFiles) : Option CertFiles :=
  some (d.put side (.file (.part block)))

/-- The rest of the text is written. -/
def writeRest (side : CertSide) (block : PemBlock) (d : CertFiles) : Option CertFiles :=
  some (d.put side (.file (.whole block)))

/-- The steps of writing a file, each of which may be the last. -/
def writePEM (side : CertSide) (block : PemBlock) : List (CertFiles → Option CertFiles) :=
  [openTrunc side, writePart side block, writeRest side block]

/-- What `EnsureCert` does to make a pair: it draws the private key and makes the certificate,
writes that, puts the key into its format, and writes it. -/
def makePair (priv : Nat) (hosts : String) (now : Int) : List (CertFiles → Option CertFiles) :=
  some :: (writePEM .cert (.certificate priv hosts now) ++
    some :: writePEM .key (.ecPrivateKey priv))

/-- `EnsureCert`, which gets past step `i` of making a pair if `ok i`: the files it leaves, and
whether it returns nil. Otherwise it returns an error or is interrupted. -/
def ensureCert (d : CertFiles) (priv : Nat) (hosts : String) (now : Int) (ok : Nat → Bool) :
    CertFiles × Bool :=
  if d.cert.fileExists = true ∧ d.key.fileExists = true then (d, true)
  else Batch.exec (makePair priv hosts now) ok d

/-- `EnsureCert` is called, or somebody deletes a file. -/
inductive CertAct
  | ensure (priv : Nat) (hosts : String) (now : Int) (ok : Nat → Bool)
  | delete (side : CertSide)

/-- The files after it. -/
def certStep (d : CertFiles) : CertAct → Option CertFiles
  | .ensure priv hosts now ok => some (ensureCert d priv hosts now ok).1
  | .delete side => some (d.put side .absent)

/-! ### What is promised -/

/-- Whenever `EnsureCert` returns nil, the pair can be used. -/
def EnsuresUsable (d : CertFiles) : Prop :=
  ∀ priv hosts now ok, (ensureCert d priv hosts now ok).2 = true →
    (ensureCert d priv hosts now ok).1.Usable

/-- The call gets past the first `n` steps. -/
def Past (ok : Nat → Bool) (n : Nat) : Prop := ∀ i < n, ok i = true

instance (ok : Nat → Bool) (n : Nat) : Decidable (Past ok n) :=
  inferInstanceAs (Decidable (∀ i < n, ok i = true))

/-- A call that makes a pair and opens the certificate file gets to the end; or no key file is
there and it does not create one; or the very key it has drawn is there, and it stops between the
certificate and the key. -/
def WritesWhole (d : CertFiles) : CertAct → Prop
  | .ensure priv _ _ ok => ¬ d.Both → d.cert ≠ .dir → Past ok 2 →
      Past ok 8 ∨ d.key = .dir ∨ (d.key = .absent ∧ ¬ Past ok 6) ∨
        (d.key = .file (.whole (.ecPrivateKey priv)) ∧ Past ok 4 ∧ ¬ Past ok 6)
  | .delete _ => True

variable {d : CertFiles} {priv : Nat} {hosts : String} {now : Int} {ok : Nat → Bool}
variable {side : CertSide} {block : PemBlock} {acts : List CertAct}

/-! ### Where a call ends -/

/-- The first steps, and those after them. -/
theorem past_add {m n : Nat} : Past ok (m + n) ↔ Past ok m ∧ Past (fun i => ok (i + m)) n := by
  constructor
  · exact fun h => ⟨fun i hi => h i (by omega), fun i hi => h (i + m) (by omega)⟩
  · rintro ⟨hfirst, hrest⟩ i hi
    by_cases him : i < m
    · exact hfirst i him
    · have hi' : ok (i - m + m) = true := hrest (i - m) (by omega)
      rwa [Nat.sub_add_cancel (not_lt.mp him)] at hi'

theorem Past.mono {m n : Nat} (h : Past ok n) (hle : m ≤ n) : Past ok m :=
  fun i hi => h i (by omega)

theorem past_one : Past ok 1 ↔ ok 0 = true := by
  simp [Past]

/-- Some text, but not all of any block. -/
def PemText.Incomplete (text : PemText) : Prop := ∀ block, text ≠ .whole block

/-- `writePEM` does not open the file, or leaves it incomplete, or writes the block. -/
theorem writePEM_cases (d : CertFiles) (side : CertSide) (block : PemBlock) (ok : Nat → Bool) :
    (Batch.exec (writePEM side block) ok d = (d, false) ∧
      (¬ Past ok 1 ∨ d.entry side = .dir)) ∨
    (∃ text : PemText, text.Incomplete ∧
      Batch.exec (writePEM side block) ok d = (d.put side (.file text), false) ∧
      Past ok 1 ∧ d.entry side ≠ .dir ∧ ¬ Past ok 3) ∨
    (Batch.exec (writePEM side block) ok d = (d.put side (.file (.whole block)), true) ∧
      d.entry side ≠ .dir ∧ Past ok 3) := by
  have hput : ∀ e e', (d.put side e).put side e' = d.put side e' := by
    cases side <;> exact fun _ _ => rfl
  by_cases hopen : Past ok 1 ∧ d.entry side ≠ .dir
  · -- the file is created or emptied, and the block is written in two pieces
    obtain ⟨h0, hdir⟩ := hopen
    have hopened : Batch.exec (writePEM side block) ok d =
        Batch.exec [writePart side block, writeRest side block] (fun i => ok (i + 1))
          (d.put side (.file .empty)) := Batch.exec_next (past_one.mp h0) (if_neg hdir)
    cases h1 : ok 1 with
    | false =>
      refine .inr (.inl ⟨.empty, by simp [PemText.Incomplete], ?_, h0, hdir, fun h => ?_⟩)
      · rw [hopened, Batch.exec_fails h1]
      · exact absurd (h1.symm.trans (h 1 (by decide))) (by simp)
    | true =>
      have hbegun : Batch.exec (writePEM side block) ok d =
          Batch.exec [writeRest side block] (fun i => ok (i + 2))
            (d.put side (.file (.part block))) := by
        rw [hopened, ← hput (.file .empty) (.file (.part block))]
        exact Batch.exec_next h1 rfl
      have hrest : writeRest side block (d.put side (.file (.part block))) =
          some (d.put side (.file (.whole block))) := by
        rw [writeRest, hput]
      rw [Batch.exec_one hrest] at hbegun
      cases h2 : ok 2 with
      | false =>
        refine .inr (.inl ⟨.part block, by simp [PemText.Incomplete], ?_, h0, hdir, fun h => ?_⟩)
        · simpa [h2] using hbegun
        · exact absurd (h2.symm.trans (h 2 (by decide))) (by simp)
      | true =>
        refine .inr (.inr ⟨by simpa [h2] using hbegun, hdir, fun i hi => ?_⟩)
        match i, hi with
        | 0, _ => exact past_one.mp h0
        | 1, _ => exact h1
        | 2, _ => exact h2
  · refine .inl ⟨?_, by tauto⟩
    cases h0 : ok 0 with
    | false => exact Batch.exec_fails h0
    | true =>
      have hdir : d.entry side = .dir := by
        by_contra hdir
        exact hopen ⟨past_one.mpr h0, hdir⟩
      exact Batch.exec_refused (if_pos hdir)

/-- The same of what is done for one of the files, with the step before it. -/
theorem stage_cases (d : CertFiles) (side : CertSide) (block : PemBlock) (ok : Nat → Bool) :
    (Batch.exec (some :: writePEM side block) ok d = (d, false) ∧
      (¬ Past ok 2 ∨ d.entry side = .dir)) ∨
    (∃ text : PemText, text.Incomplete ∧
      Batch.exec (some :: writePEM side block) ok d = (d.put side (.file text), false) ∧
      Past ok 2 ∧ d.entry side ≠ .dir ∧ ¬ Past ok 4) ∨
    (Batch.exec (some :: writePEM side block) ok d = (d.put side (.file (.whole block)), true) ∧
      d.entry side ≠ .dir ∧ Past ok 4) := by
  have hpast : ∀ n, Past ok (1 + n) ↔ Past ok 1 ∧ Past (fun i => ok (i + 1)) n :=
    fun n => past_add
  by_cases h0 : Past ok 1
  · rw [Batch.exec_next (past_one.mp h0) rfl]
    rcases writePEM_cases d side block (fun i => ok (i + 1)) with
      ⟨hexec, hwhy⟩ | ⟨text, htext, hexec, h1, hdir, h3⟩ | ⟨hexec, hdir, h3⟩
    · exact .inl ⟨hexec, hwhy.imp_left fun hnot h2 => hnot ((hpast 1).mp h2).2⟩
    · exact .inr (.inl ⟨text, htext, hexec, (hpast 1).mpr ⟨h0, h1⟩, hdir,
        fun h4 => h3 ((hpast 3).mp h4).2⟩)
    · exact .inr (.inr ⟨hexec, hdir, (hpast 3).mpr ⟨h0, h3⟩⟩)
  · refine .inl ⟨Batch.exec_fails ?_, .inl fun h2 => h0 (h2.mono (by decide))⟩
    simpa [past_one] using h0

/-- A call that finds only one of the files, or none, leaves them as they are, or leaves the
certificate incomplete, or stops between the two files, or leaves the key incomplete, or writes
the pair. -/
theorem ensureCert_cases (h : ¬ d.Both) (priv : Nat) (hosts : String) (now : Int)
    (ok : Nat → Bool) :
    (ensureCert d priv hosts now ok = (d, false) ∧ (¬ Past ok 2 ∨ d.cert = .dir)) ∨
    (∃ text : PemText, text.Incomplete ∧
      ensureCert d priv hosts now ok = (⟨.file text, d.key⟩, false) ∧
      Past ok 2 ∧ d.cert ≠ .dir ∧ ¬ Past ok 4) ∨
    (ensureCert d priv hosts now ok =
        (⟨.file (.whole (.certificate priv hosts now)), d.key⟩, false) ∧
      Past ok 4 ∧ d.cert ≠ .dir ∧ (¬ Past ok 6 ∨ d.key = .dir)) ∨
    (∃ text : PemText, text.Incomplete ∧ ensureCert d priv hosts now ok =
        (⟨.file (.whole (.certificate priv hosts now)), .file text⟩, false) ∧
      Past ok 6 ∧ d.cert ≠ .dir ∧ d.key ≠ .dir ∧ ¬ Past ok 8) ∨
    (ensureCert d priv hosts now ok = (⟨.file (.whole (.certificate priv hosts now)),
        .file (.whole (.ecPrivateKey priv))⟩, true) ∧ Past ok 8) := by
  have hmake : ensureCert d priv hosts now ok = Batch.exec
      ((some :: writePEM .cert (.certificate priv hosts now)) ++
        (some :: writePEM .key (.ecPrivateKey priv))) ok d := if_neg h
  rcases stage_cases d .cert (.certificate priv hosts now) ok with
    ⟨hexec, hwhy⟩ | ⟨text, htext, hexec, h2, hdir, h4⟩ | ⟨hexec, hdir, h4⟩
  · exact .inl ⟨hmake.trans (Batch.exec_append_error hexec), hwhy⟩
  · exact .inr (.inl ⟨text, htext, hmake.trans (Batch.exec_append_error hexec), h2, hdir, h4⟩)
  · -- the certificate is written, and four steps later the key is
    have hkey := hmake.trans (Batch.exec_append_done hexec)
    have hpast : ∀ n, Past ok (4 + n) ↔ Past ok 4 ∧ Past (fun i => ok (i + 4)) n :=
      fun n => past_add
    rcases stage_cases ⟨.file (.whole (.certificate priv hosts now)), d.key⟩ .key
        (.ecPrivateKey priv) (fun i => ok (i + 4)) with
      ⟨hexec, hwhy⟩ | ⟨text, htext, hexec, h6, hkeydir, h8⟩ | ⟨hexec, -, h8⟩
    · exact .inr (.inr (.inl ⟨hkey.trans hexec, h4, hdir,
        hwhy.imp_left fun hnot h6 => hnot ((hpast 2).mp h6).2⟩))
    · exact .inr (.inr (.inr (.inl ⟨text, htext, hkey.trans hexec, (hpast 2).mpr ⟨h4, h6⟩,
        hdir, hkeydir, fun hall => h8 ((hpast 4).mp hall).2⟩)))
    · exact .inr (.inr (.inr (.inr ⟨hkey.trans hexec, (hpast 4).mpr ⟨h4, h8⟩⟩)))

/-! ### What is left behind -/

theorem CertFiles.both_file {text text' : PemText} :
    (⟨.file text, .file text'⟩ : CertFiles).Both := ⟨rfl, rfl⟩

/-- A file that is not complete is no part of a pair. -/
theorem CertFiles.not_usable_of_incomplete {text : PemText} (h : text.Incomplete)
    (hd : d.cert = .file text ∨ d.key = .file text) : ¬ d.Usable := by
  rintro ⟨priv, hosts, now, hcert, hkey⟩
  rcases hd with hd | hd
  · exact h _ (PathEntry.file.inj (hd.symm.trans hcert))
  · exact h _ (PathEntry.file.inj (hd.symm.trans hkey))

/-- `EnsureCert` keeps its promise exactly for files that are not both there, or that can be
used. -/
theorem ensuresUsable_iff : EnsuresUsable d ↔ (d.Both → d.Usable) := by
  constructor
  · intro h hboth
    have hnil : ensureCert d 0 "" 0 (fun _ => true) = (d, true) := if_pos hboth
    have husable := h 0 "" 0 (fun _ => true)
    rw [hnil] at husable
    exact husable rfl
  · intro h priv hosts now ok hok
    by_cases hboth : d.Both
    · have hnil : ensureCert d priv hosts now ok = (d, true) := if_pos hboth
      rw [hnil]
      exact h hboth
    · -- a call that makes a pair returns nil only at its end
      rcases ensureCert_cases hboth priv hosts now ok with ⟨heq, -⟩ | ⟨text, -, heq, -⟩ |
        ⟨heq, -⟩ | ⟨text, -, heq, -⟩ | ⟨heq, -⟩
      · exact absurd hok (by simp [heq])
      · exact absurd hok (by simp [heq])
      · exact absurd hok (by simp [heq])
      · exact absurd hok (by simp [heq])
      · rw [heq]
        exact ⟨priv, hosts, now, rfl, rfl⟩

/-- A certificate that is not complete is a bad pair with any key file. -/
theorem ensuresUsable_incomplete_cert {text : PemText} {key : PathEntry} (h : text.Incomplete) :
    EnsuresUsable ⟨.file text, key⟩ ↔ key = .dir ∨ key = .absent := by
  rw [ensuresUsable_iff]
  cases key with
  | file text' =>
    have hbad := CertFiles.not_usable_of_incomplete (d := ⟨.file text, .file text'⟩) h (.inl rfl)
    exact iff_of_false (fun hall => hbad (hall CertFiles.both_file)) (by simp)
  | _ => simp [CertFiles.Both, PathEntry.fileExists]

/-- A new certificate is a bad pair with any key file but that of its own key. -/
theorem ensuresUsable_new_cert {key : PathEntry} :
    EnsuresUsable ⟨.file (.whole (.certificate priv hosts now)), key⟩ ↔
      key = .dir ∨ key = .absent ∨ key = .file (.whole (.ecPrivateKey priv)) := by
  rw [ensuresUsable_iff]
  cases key with
  | file text =>
    constructor
    · intro hall
      obtain ⟨priv', hosts', now', hcert, hkey⟩ := hall CertFiles.both_file
      obtain ⟨rfl, -, -⟩ := PemBlock.certificate.inj
        (PemText.whole.inj (PathEntry.file.inj hcert))
      exact .inr (.inr hkey)
    · rintro (hdir | habsent | hkey)
      · exact absurd hdir (by simp)
      · exact absurd habsent (by simp)
      · exact fun _ => ⟨priv, hosts, now, rfl, hkey⟩
  | _ => simp [CertFiles.Both, PathEntry.fileExists]

/-- What a call or a deletion leaves is safe for the next call exactly if it writes the pair
whole. -/
theorem ensuresUsable_step {act : CertAct} {d' : CertFiles} (hd : EnsuresUsable d)
    (hstep : certStep d act = some d') : EnsuresUsable d' ↔ WritesWhole d act := by
  cases act with
  | delete side =>
    obtain rfl := Option.some.inj hstep
    refine iff_of_true (ensuresUsable_iff.mpr fun hboth => ?_) trivial
    -- one of the files is gone
    cases side with
    | cert => exact absurd hboth.1 (by simp [CertFiles.put, PathEntry.fileExists])
    | key => exact absurd hboth.2 (by simp [CertFiles.put, PathEntry.fileExists])
  | ensure priv hosts now ok =>
    obtain rfl := Option.some.inj hstep
    by_cases hboth : d.Both
    · have hnil : ensureCert d priv hosts now ok = (d, true) := if_pos hboth
      rw [hnil]
      exact iff_of_true hd fun hnot => absurd hboth hnot
    · rcases ensureCert_cases hboth priv hosts now ok with ⟨heq, hwhy⟩ |
        ⟨text, htext, heq, h2, hdir, h4⟩ | ⟨heq, h4, hdir, hwhy⟩ |
        ⟨text, htext, heq, h6, hdir, hkeydir, h8⟩ | ⟨heq, h8⟩
      · -- the certificate file is not opened
        rw [heq]
        refine iff_of_true hd fun _ hdir h2 => ?_
        exact absurd hwhy (not_or.mpr ⟨not_not.mpr h2, hdir⟩)
      · -- the certificate is not complete, and the key file is what it was
        have h6 : ¬ Past ok 6 := fun h6 => h4 (h6.mono (by decide))
        have h8 : ¬ Past ok 8 := fun h8 => h4 (h8.mono (by decide))
        rw [heq, ensuresUsable_incomplete_cert htext]
        simp [WritesWhole, hboth, hdir, h2, h4, h6, h8]
      · -- the certificate is a new one, and the key file is what it was
        rw [heq, ensuresUsable_new_cert]
        have h2 : Past ok 2 := h4.mono (by decide)
        by_cases hkeydir : d.key = .dir
        · exact iff_of_true (.inl hkeydir) fun _ _ _ => .inr (.inl hkeydir)
        · have h6 := hwhy.resolve_right hkeydir
          have h8 : ¬ Past ok 8 := fun h8 => h6 (h8.mono (by decide))
          simp [WritesWhole, hboth, hdir, h2, h4, h6, h8]
      · -- the key file is there and not complete
        have h2 : Past ok 2 := h6.mono (by decide)
        have hbad := CertFiles.not_usable_of_incomplete
          (d := ⟨.file (.whole (.certificate priv hosts now)), .file text⟩) htext (.inr rfl)
        rw [heq]
        refine iff_of_false (fun hall => ?_) ?_
        · exact hbad (ensuresUsable_iff.mp hall CertFiles.both_file)
        · simp [WritesWhole, hboth, hdir, hkeydir, h2, h6, h8]
      · rw [heq, ensuresUsable_new_cert]
        exact iff_of_true (.inr (.inr rfl)) fun _ _ _ => .inl h8

/-- From any two files, in every run of calls of `EnsureCert`, cut short anywhere, and of
deletions: what `EnsureCert` would accept in any state of the run can be used exactly if that is
so at the start and every call writes the pair whole. -/
theorem pair_usable_iff (d : CertFiles) (acts : List CertAct) :
    Always certStep EnsuresUsable d acts ↔
      (d.Both → d.Usable) ∧ Meets certStep WritesWhole d acts := by
  rw [← ensuresUsable_iff]
  by_cases hd : EnsuresUsable d
  · rw [and_iff_right hd]
    refine always_iff_meets_of_step hd (fun _ _ _ => ensuresUsable_step) fun d act hrefused => ?_
    cases act <;> exact absurd hrefused (by simp [certStep])
  · refine iff_of_false (fun hall => hd ?_) fun hall => hd hall.1
    exact hall [] d List.nil_prefix rfl

/-- The first call stops when it has created the key file; the next finds both files. -/
theorem pair_unusable : ¬ ∀ acts d, run certStep {} acts = some d → EnsuresUsable d := by
  intro hall
  have hleft := hall [.ensure 1 "" 0 fun i => decide (i < 6)]
    ⟨.file (.whole (.certificate 1 "" 0)), .file .empty⟩ (by decide)
  have husable := ensuresUsable_iff.mp hleft CertFiles.both_file
  have hempty : PemText.empty.Incomplete := by simp [PemText.Incomplete]
  exact CertFiles.not_usable_of_incomplete hempty (.inr rfl) husable

end CertGuard
