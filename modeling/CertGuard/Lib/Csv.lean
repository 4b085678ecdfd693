import Mathlib.Data.List.Forall2
import Mathlib.Data.List.Nodup

/-!
# Comma-separated values

Records are separated by CR LF and their fields by a separator. A field may stand between quotes,
with the quotes in it doubled; it has to where it has a quote, a separator, a CR or an LF. The
reader takes one letter after the other and refuses what no writer may write.

## Main definitions

* `Csv.Dialect` — the four letters that have a meaning
* `Csv.Dialect.Cell` — how a field may be written
* `Csv.Dialect.write` — cells to records to a text
* `Csv.Dialect.step`, `Csv.Dialect.read` — the reader

## Main results

* `Csv.Dialect.read_write` — records are read back, however their fields are written
-/

namespace Csv

/-- The letters that have a meaning. -/
structure Dialect (α : Type*) where
  quote : α
  sep : α
  cr : α
  lf : α
  nodup : [quote, sep, cr, lf].Nodup

/-- Where the reader is. -/
inductive Mode
  /-- At the beginning of a field. -/
  | start
  | plain
  | quoted
  /-- After a quote within quotes: the last one, or the first of two. -/
  | closed
  /-- After a CR outside of quotes. -/
  | ended
  deriving DecidableEq, Repr

/-- What the reader has read: records, fields of the next, and letters of its next field. -/
structure State (α : Type*) where
  mode : Mode
  field : List α
  fields : List (List α)
  records : List (List (List α))

namespace State

variable {α : Type*}

/-- One letter more. -/
def put (s : State α) (mode : Mode) (a : α) : State α :=
  { s with mode := mode, field := s.field ++ [a] }

/-- The field is complete. -/
def endField (s : State α) : State α := ⟨.start, [], s.fields ++ [s.field], s.records⟩

/-- And the record. -/
def endRecord (s : State α) : State α := ⟨.start, [], [], s.records ++ [s.fields ++ [s.field]]⟩

end State

namespace Dialect

variable {α : Type*} (d : Dialect α)

theorem sep_ne_quote : d.sep ≠ d.quote := fun heq =>
  (List.nodup_cons.mp d.nodup).1 (by simp [heq])

theorem cr_ne_quote : d.cr ≠ d.quote := fun heq =>
  (List.nodup_cons.mp d.nodup).1 (by simp [heq])

theorem cr_ne_sep : d.cr ≠ d.sep := fun heq =>
  (List.nodup_cons.mp (List.nodup_cons.mp d.nodup).2).1 (by simp [heq])

/-! ### Writing -/

/-- A letter that only stands between quotes. -/
def Special (a : α) : Prop := a = d.quote ∨ a = d.sep ∨ a = d.cr ∨ a = d.lf

instance [DecidableEq α] (a : α) : Decidable (d.Special a) := inferInstanceAs (Decidable (_ ∨ _))

/-- A field between quotes. -/
def quoted [DecidableEq α] (f : List α) : List α :=
  d.quote :: (f.flatMap fun a => if a = d.quote then [d.quote, d.quote] else [a]) ++ [d.quote]

/-- The ways to write a field. -/
inductive Cell [DecidableEq α] (f : List α) : List α → Prop
  | quoted : Cell f (d.quoted f)
  | plain (h : ∀ a ∈ f, ¬ d.Special a) : Cell f f

/-- The text of records of cells. -/
def write (rows : List (List (List α))) : List α :=
  [d.cr, d.lf].intercalate (rows.map [d.sep].intercalate)

theorem intercalate_singleton (sep x : List α) : sep.intercalate [x] = x := by
  simp [List.intercalate]

theorem intercalate_cons_cons (sep x y : List α) (xs : List (List α)) :
    sep.intercalate (x :: y :: xs) = x ++ sep ++ sep.intercalate (y :: xs) := by
  simp [List.intercalate]

/-! ### Reading -/

variable [DecidableEq α]

/-- After a field. -/
def leave (s : State α) (a : α) : Option (State α) :=
  if a = d.sep then some s.endField
  else if a = d.cr then some { s with mode := .ended }
  else none

/-- One letter. -/
def step (s : State α) (a : α) : Option (State α) :=
  match s.mode with
  | .start =>
    if a = d.quote then some { s with mode := .quoted }
    else if a = d.sep ∨ a = d.cr then d.leave s a
    else if a = d.lf then none
    else some (s.put .plain a)
  | .plain =>
    if a = d.sep ∨ a = d.cr then d.leave s a
    else if a = d.quote ∨ a = d.lf then none
    else some (s.put .plain a)
  | .quoted => if a = d.quote then some { s with mode := .closed } else some (s.put .quoted a)
  | .closed => if a = d.quote then some (s.put .quoted a) else d.leave s a
  | .ended => if a = d.lf then some s.endRecord else none

/-- The end of the text. There is no record after the last CR LF. -/
def finish (s : State α) : Option (List (List (List α))) :=
  match s.mode with
  | .start => if s.fields = [] then some s.records else some s.endRecord.records
  | .plain => some s.endRecord.records
  | .closed => some s.endRecord.records
  | .quoted => none
  | .ended => none

/-- Reads a text. -/
def read (t : List α) : Option (List (List (List α))) :=
  (t.foldlM d.step ⟨.start, [], [], []⟩).bind finish

variable {d} {a : α} {f t : List α} {fs ts gs : List (List α)} {s : State α}
  {rs : List (List (List α))}

/-! ### Fields -/

/-- The reader is after the field `f`, which may have been written without quotes or with them. -/
structure After (s : State α) (f : List α) (fs : List (List α)) (rs : List (List (List α))) :
    Prop where
  field : s.field = f
  fields : s.fields = fs
  records : s.records = rs
  mode : s.mode = .closed ∨ s.mode = .plain ∨ s.mode = .start ∧ f = []

theorem After.step_of_leave (hs : After s f fs rs) (ha : a = d.sep ∨ a = d.cr) :
    d.step s a = d.leave s a := by
  have hquote : a ≠ d.quote := by
    rcases ha with rfl | rfl
    · exact d.sep_ne_quote
    · exact d.cr_ne_quote
  unfold step
  rcases hs.mode with hmode | hmode | ⟨hmode, -⟩
  · rw [hmode]
    exact if_neg hquote
  · rw [hmode]
    exact if_pos ha
  · rw [hmode]
    exact (if_neg hquote).trans (if_pos ha)

theorem After.step_sep (hs : After s f fs rs) :
    d.step s d.sep = some ⟨.start, [], fs ++ [f], rs⟩ := by
  rw [hs.step_of_leave (.inl rfl), leave, if_pos rfl, State.endField, hs.field, hs.fields,
    hs.records]

/-- A record ends at CR LF. -/
theorem After.foldlM_crlf (hs : After s f fs rs) :
    [d.cr, d.lf].foldlM d.step s = some ⟨.start, [], [], rs ++ [fs ++ [f]]⟩ := by
  have hcr : d.step s d.cr = some { s with mode := .ended } := by
    rw [hs.step_of_leave (.inr rfl), leave, if_neg d.cr_ne_sep, if_pos rfl]
  rw [List.foldlM_cons, hcr]
  simp [step, State.endRecord, hs.field, hs.fields, hs.records]

/-- Letters between quotes. -/
theorem foldlM_quoted (f : List α) (hs : s.mode = .quoted) :
    (f.flatMap fun a => if a = d.quote then [d.quote, d.quote] else [a]).foldlM d.step s =
      some { s with field := s.field ++ f } := by
  induction f generalizing s with
  | nil => simp
  | cons a f ih =>
    have hletter : (if a = d.quote then [d.quote, d.quote] else [a]).foldlM d.step s =
        some (s.put .quoted a) := by
      split_ifs with hquote
      · subst hquote
        simp [List.foldlM_cons, step, hs, State.put]
      · simp [List.foldlM_cons, step, hs, hquote]
    rw [List.flatMap_cons, List.foldlM_append, hletter]
    refine (ih (s := s.put .quoted a) rfl).trans ?_
    simp [State.put, hs]

/-- Letters without quotes. -/
theorem foldlM_plain (h : ∀ a ∈ f, ¬ d.Special a) (hs : s.mode = .plain) :
    f.foldlM d.step s = some { s with field := s.field ++ f } := by
  induction f generalizing s with
  | nil => simp
  | cons a f ih =>
    have ha := h a List.mem_cons_self
    simp only [Special, not_or] at ha
    have hstep : d.step s a = some (s.put .plain a) := by
      simp [step, hs, ha.1, ha.2.1, ha.2.2.1, ha.2.2.2]
    rw [List.foldlM_cons, hstep]
    refine (ih (s := s.put .plain a) (fun b hb => h b (List.mem_cons_of_mem a hb)) rfl).trans ?_
    simp [State.put, hs]

/-- A cell is read as its field. -/
theorem Cell.foldlM (h : d.Cell f t) (fs : List (List α)) (rs : List (List (List α))) :
    ∃ s, t.foldlM d.step ⟨.start, [], fs, rs⟩ = some s ∧ After s f fs rs := by
  cases h with
  | quoted =>
    refine ⟨⟨.closed, f, fs, rs⟩, ?_, rfl, rfl, rfl, .inl rfl⟩
    have hopen : d.step ⟨.start, [], fs, rs⟩ d.quote = some ⟨.quoted, [], fs, rs⟩ := if_pos rfl
    have hclose : d.step ⟨.quoted, f, fs, rs⟩ d.quote = some ⟨.closed, f, fs, rs⟩ := if_pos rfl
    rw [Dialect.quoted, List.cons_append, List.foldlM_cons, hopen]
    simp [List.foldlM_append, foldlM_quoted, List.foldlM_cons, hclose]
  | plain h =>
    cases f with
    | nil => exact ⟨_, rfl, rfl, rfl, rfl, .inr (.inr ⟨rfl, rfl⟩)⟩
    | cons a f =>
      have ha := h a List.mem_cons_self
      simp only [Special, not_or] at ha
      have hstep : d.step ⟨.start, [], fs, rs⟩ a = some ⟨.plain, [a], fs, rs⟩ := by
        simp [step, ha.1, ha.2.1, ha.2.2.1, ha.2.2.2, State.put]
      refine ⟨⟨.plain, a :: f, fs, rs⟩, ?_, rfl, rfl, rfl, .inr (.inl rfl)⟩
      rw [List.foldlM_cons, hstep]
      exact foldlM_plain (fun b hb => h b (List.mem_cons_of_mem a hb)) rfl

/-! ### Records -/

/-- The cells of a record are read as its fields; the last of them is not followed by anything. -/
theorem foldlM_record (h : List.Forall₂ d.Cell gs ts) (hne : gs ≠ []) (fs : List (List α))
    (rs : List (List (List α))) :
    ∃ s g gs', ([d.sep].intercalate ts).foldlM d.step ⟨.start, [], fs, rs⟩ = some s ∧
      After s g (fs ++ gs') rs ∧ gs = gs' ++ [g] := by
  induction h generalizing fs with
  | nil => exact absurd rfl hne
  | @cons g t gs ts hcell hcells ih =>
    obtain ⟨s, hread, hs⟩ := hcell.foldlM fs rs
    cases hcells with
    | nil => exact ⟨s, g, [], by rw [intercalate_singleton]; exact hread, by simpa using hs, rfl⟩
    | @cons g₂ t₂ gs ts hcell₂ hcells =>
      obtain ⟨s', g', gs', hread', hs', hgs⟩ := ih (by simp) (fs ++ [g])
      refine ⟨s', g', g :: gs', ?_, by simpa using hs', by rw [hgs]; rfl⟩
      rw [intercalate_cons_cons, List.foldlM_append, List.foldlM_append, hread]
      simp only [Option.bind_eq_bind, Option.bind_some, List.foldlM_cons, List.foldlM_nil,
        hs.step_sep]
      exact hread'

/-- And so are those of one record after the other. -/
theorem foldlM_write {records rows : List (List (List α))}
    (h : List.Forall₂ (List.Forall₂ d.Cell) records rows) (hne : records ≠ [])
    (hfields : ∀ r ∈ records, r ≠ []) (rs : List (List (List α))) :
    ∃ s g gs rs', (d.write rows).foldlM d.step ⟨.start, [], [], rs⟩ = some s ∧
      After s g gs rs' ∧ rs ++ records = rs' ++ [gs ++ [g]] := by
  induction h generalizing rs with
  | nil => exact absurd rfl hne
  | @cons r row records rows hrow hrows ih =>
    obtain ⟨s, g, gs, hread, hs, rfl⟩ := foldlM_record hrow
      (hfields r List.mem_cons_self) [] rs
    cases hrows with
    | nil => exact ⟨s, g, gs, rs, by simpa [write, intercalate_singleton] using hread, hs, rfl⟩
    | @cons r₂ row₂ records rows hrow₂ hrows =>
      obtain ⟨s', g', gs', rs', hread', hs', hrs⟩ := ih (by simp)
        (fun r hr => hfields r (List.mem_cons_of_mem _ hr)) (rs ++ [gs ++ [g]])
      refine ⟨s', g', gs', rs', ?_, hs', by rw [← hrs]; simp⟩
      rw [write, List.map_cons, List.map_cons, intercalate_cons_cons, List.append_assoc,
        List.foldlM_append, hread]
      simp only [Option.bind_eq_bind, Option.bind_some, List.foldlM_append, hs.foldlM_crlf]
      exact hread'

/-- Records are read back, however their fields are written. A record of one empty field is written
as nothing, so there may be none. -/
theorem read_write {records rows : List (List (List α))}
    (h : List.Forall₂ (List.Forall₂ d.Cell) records rows) (hne : records ≠ [])
    (hfields : ∀ r ∈ records, r ≠ [] ∧ r ≠ [[]]) : d.read (d.write rows) = some records := by
  obtain ⟨s, g, gs, rs, hread, hs, hrecords⟩ :=
    foldlM_write h hne (fun r hr => (hfields r hr).1) []
  rw [List.nil_append] at hrecords
  rw [read, hread, Option.bind_some, hrecords]
  have hend : s.endRecord.records = rs ++ [gs ++ [g]] := by
    rw [State.endRecord, hs.field, hs.fields, hs.records]
  unfold finish
  rcases hs.mode with hmode | hmode | ⟨hmode, rfl⟩
  · rw [hmode, ← hend]
  · rw [hmode, ← hend]
  · -- an empty last field: there are others before it
    have hlast := (hfields (gs ++ [[]]) (by rw [hrecords]; simp)).2
    have hfs : s.fields ≠ [] := fun heq => hlast (by rw [← hs.fields, heq]; rfl)
    rw [hmode, ← hend]
    exact if_neg hfs

end Dialect

end Csv
