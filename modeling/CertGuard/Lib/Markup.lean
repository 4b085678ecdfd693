import Mathlib.Data.List.Basic

/-!
# Markup

What a browser makes of markup that a program has put together from fixed text and from data. The
reader follows the tokenizer and the tree construction of the HTML standard on documents of
nested elements with double-quoted attributes; where the standard closes, moves or repairs
something by itself, the reader is lost. Data is read as it is but for what the standard replaces
itself: line ends become LF, and NUL is dropped from a text and replaced in a value.

## Main definitions

* `Dom`, `Reader`, `parse` — a document as it is read
* `Source`, `Source.write`, `Source.read` — a document as it is written, and what is to be read
* `Source.wellFormed` — the names and the nesting are what the reader knows

## Main results

* `feed_escape`, `feed_escape_value` — escaped data is read as data
* `Source.lines_writeBefore` — line ends are normalized in the data alone
* `parse_write` — what is written is read, whatever the data
-/

namespace Markup

abbrev Text := List Char

abbrev Attrs := List (Text × Text)

/-! ### Documents as they are read -/

/-- A document: its characters and elements, one after the other. -/
inductive Dom
  | nil
  | char (c : Char) (rest : Dom)
  | elem (name : Text) (attrs : Attrs) (kids rest : Dom)
  deriving DecidableEq

namespace Dom

/-- One document after the other. -/
def append : Dom → Dom → Dom
  | .nil, e => e
  | .char c d, e => .char c (d.append e)
  | .elem n as kids d, e => .elem n as kids (d.append e)

/-- A text, character by character. -/
def chars : Text → Dom
  | [] => .nil
  | c :: t => .char c (chars t)

variable {d e f : Dom}

@[simp] theorem nil_append : Dom.nil.append e = e := rfl

@[simp] theorem append_nil : d.append .nil = d := by
  induction d with
  | nil => rfl
  | char c d ih => simp only [append, ih]
  | elem n as kids d _ ih => simp only [append, ih]

@[simp] theorem append_assoc : (d.append e).append f = d.append (e.append f) := by
  induction d with
  | nil => rfl
  | char c d ih => simp only [append, ih]
  | elem n as kids d _ ih => simp only [append, ih]

theorem chars_append (t u : Text) : chars (t ++ u) = (chars t).append (chars u) := by
  induction t with
  | nil => rfl
  | cons c t ih => simp only [List.cons_append, chars, append, ih]

end Dom

/-! ### Line ends and NUL -/

/-- A text with its line ends normalized: CR and CR LF become LF. The flag says whether a CR stands
before it. -/
def lines (cr : Bool) : Text → Text
  | [] => []
  | c :: t =>
    if c = '\r' then '\n' :: lines true t
    else if c = '\n' ∧ cr = true then lines false t
    else c :: lines false t

example : lines false ['a', '\r', '\n', '\r', 'b'] = ['a', '\n', '\n', 'b'] := by decide

/-- Whether a CR stands before what follows a text. -/
def endsCr (cr : Bool) : Text → Bool
  | [] => cr
  | c :: t => endsCr (c = '\r') t

/-- What a text shows of its characters. -/
def shown (t : Text) : Text := t.filter (· ≠ '\x00')

/-- What a value keeps in place of a character. -/
def kept (c : Char) : Char := if c = '\x00' then '\uFFFD' else c

/-! ### The reader -/

/-- Elements that have no content. -/
def voidNames : List Text := ["br".toList]

/-- Elements that stand below each other; a paragraph ends where one begins. -/
def blockNames : List Text := ["div".toList, "p".toList, "section".toList]

/-- Elements within a line. -/
def phrasingNames : List Text :=
  ["span".toList, "strong".toList, "em".toList, "i".toList, "a".toList, "button".toList]

/-- Elements that are never within one of their own kind. -/
def loneNames : List Text := ["a".toList, "button".toList]

/-- An element may begin within the open ones without any of them ending. -/
def allowed (opened : List Text) (n : Text) : Bool :=
  (n ∈ blockNames && "p".toList ∉ opened) ||
    (n ∈ phrasingNames && !(n ∈ loneNames && n ∈ opened))

def isSpace (c : Char) : Bool := c == ' ' || c == '\n' || c == '\t'

def isNameChar (c : Char) : Bool := c.isLower || c.isDigit || c == '-'

/-- The references to characters, without the `&` and the `;`. -/
def references : List (Text × Char) :=
  [("amp".toList, '&'), ("lt".toList, '<'), ("gt".toList, '>'), ("quot".toList, '"'),
    ("#39".toList, '\'')]

/-- The character a reference stands for. -/
def referent (r : Text) : Option Char := (references.find? fun p => p.1 == r).map Prod.snd

/-- Where in a tag or a text the reader is, with what it has read of it. -/
inductive Phase
  | text
  | reference (r : Text)
  | tagOpen
  | tagName (n : Text)
  | endOpen
  | endName (n : Text)
  | beforeAttr (n : Text) (as : Attrs)
  | attrName (n : Text) (as : Attrs) (a : Text)
  | beforeValue (n : Text) (as : Attrs) (a : Text)
  | value (n : Text) (as : Attrs) (a v : Text)
  | valueReference (n : Text) (as : Attrs) (a v r : Text)
  | afterValue (n : Text) (as : Attrs)
  | lost
  deriving DecidableEq

/-- An element that has begun, and what stands before it. -/
structure Opened where
  name : Text
  attrs : Attrs
  before : Dom
  deriving DecidableEq

/-- The reader: its phase, the open elements from the innermost, and what the innermost has. -/
structure Reader where
  phase : Phase
  stack : List Opened
  here : Dom
  deriving DecidableEq

namespace Reader

/-- The reader in another phase. -/
def turn (r : Reader) (p : Phase) : Reader := { r with phase := p }

/-- A character of the document; NUL is ignored. -/
def put (r : Reader) (c : Char) : Reader :=
  { r with phase := .text, here := r.here.append (.chars (shown [c])) }

/-- A start tag. -/
def openTag (r : Reader) (n : Text) (as : Attrs) : Reader :=
  if n ∈ voidNames then { r with phase := .text, here := r.here.append (.elem n as .nil .nil) }
  else if allowed (r.stack.map Opened.name) n then ⟨.text, ⟨n, as, r.here⟩ :: r.stack, .nil⟩
  else r.turn .lost

/-- An end tag ends the innermost element. -/
def closeTag (r : Reader) (n : Text) : Reader :=
  match r.stack with
  | o :: stack =>
    if o.name = n then ⟨.text, stack, o.before.append (.elem n o.attrs r.here .nil)⟩
    else r.turn .lost
  | [] => r.turn .lost

/-- One more character. -/
def next (r : Reader) (c : Char) : Reader :=
  match r.phase with
  | .text =>
    if c = '<' then r.turn .tagOpen
    else if c = '&' then r.turn (.reference [])
    else r.put c
  | .reference ref =>
    if c = ';' then
      match referent ref with
      | some d => r.put d
      | none => r.turn .lost
    else if c.isAlphanum || c = '#' then r.turn (.reference (ref ++ [c]))
    else r.turn .lost
  | .tagOpen =>
    if c = '/' then r.turn .endOpen else if c.isLower then r.turn (.tagName [c]) else r.turn .lost
  | .tagName n =>
    if c = '>' then r.openTag n []
    else if isSpace c then r.turn (.beforeAttr n [])
    else if isNameChar c then r.turn (.tagName (n ++ [c]))
    else r.turn .lost
  | .endOpen => if c.isLower then r.turn (.endName [c]) else r.turn .lost
  | .endName n =>
    if c = '>' then r.closeTag n
    else if isNameChar c then r.turn (.endName (n ++ [c]))
    else r.turn .lost
  | .beforeAttr n as =>
    if c = '>' then r.openTag n as
    else if isSpace c then r
    else if isNameChar c then r.turn (.attrName n as [c])
    else r.turn .lost
  | .attrName n as a =>
    -- of two attributes with one name the standard keeps the first
    if c = '=' then if a ∈ as.map Prod.fst then r.turn .lost else r.turn (.beforeValue n as a)
    else if isNameChar c then r.turn (.attrName n as (a ++ [c]))
    else r.turn .lost
  | .beforeValue n as a => if c = '"' then r.turn (.value n as a []) else r.turn .lost
  | .value n as a v =>
    if c = '"' then r.turn (.afterValue n (as ++ [(a, v)]))
    else if c = '&' then r.turn (.valueReference n as a v [])
    else r.turn (.value n as a (v ++ [kept c]))
  | .valueReference n as a v ref =>
    if c = ';' then
      match referent ref with
      | some d => r.turn (.value n as a (v ++ [d]))
      | none => r.turn .lost
    else if c.isAlphanum || c = '#' then r.turn (.valueReference n as a v (ref ++ [c]))
    else r.turn .lost
  | .afterValue n as =>
    if c = '>' then r.openTag n as
    else if isSpace c then r.turn (.beforeAttr n as)
    else r.turn .lost
  | .lost => r

/-- The characters of a text, one after the other. -/
def feed (r : Reader) (t : Text) : Reader := t.foldl next r

end Reader

/-- The document that is read from a text, if the reader knows its way and every element ends. -/
def parse (t : Text) : Option Dom :=
  let r := Reader.feed ⟨.text, [], .nil⟩ (lines false t)
  if r.phase = .text ∧ r.stack = [] then some r.here else none

/-! ### Documents as they are written -/

/-- A character with a meaning of its own is written as a reference. -/
def letter (c : Char) : Text :=
  match references.find? fun p => p.2 == c with
  | some p => '&' :: (p.1 ++ [';'])
  | none => [c]

/-- Data as it is written into a text or a value. -/
def escape (t : Text) : Text := t.flatMap letter

/-- An attribute with the space before it. -/
structure Attr where
  gap : Text
  name : Text
  value : Text

/-- A document with its data, as it is written. -/
inductive Source
  | nil
  | text (t : Text) (rest : Source)
  | elem (name : Text) (attrs : List Attr) (kids rest : Source)
  | void (name : Text) (attrs : List Attr) (rest : Source)

/-- An attribute, before what follows. -/
def Attr.write (a : Attr) (k : Text) : Text :=
  a.gap ++ (a.name ++ ('=' :: '"' :: (escape a.value ++ ('"' :: k))))

/-- An attribute with its line ends normalized. -/
def Attr.lined (a : Attr) : Attr := { a with value := lines false a.value }

/-- An attribute that is meant. -/
def Attr.dom (a : Attr) : Text × Text := (a.name, a.value.map kept)

/-- Attributes, before what follows. -/
def writeAttrs : List Attr → Text → Text
  | [], k => k
  | a :: as, k => a.write (writeAttrs as k)

namespace Source

/-- A document, before what follows. -/
def writeBefore : Source → Text → Text
  | nil, k => k
  | text t rest, k => escape t ++ rest.writeBefore k
  | elem n as kids rest, k =>
    '<' :: (n ++ writeAttrs as
      ('>' :: kids.writeBefore ('<' :: '/' :: (n ++ ('>' :: rest.writeBefore k)))))
  | void n as rest, k => '<' :: (n ++ writeAttrs as ('>' :: rest.writeBefore k))

def write (m : Source) : Text := m.writeBefore []

/-- The document with its line ends normalized, behind a CR or not. -/
def lined (cr : Bool) : Source → Source
  | nil => nil
  | text t rest => text (lines cr t) (rest.lined (endsCr cr t))
  | elem n as kids rest => elem n (as.map Attr.lined) (kids.lined false) (rest.lined false)
  | void n as rest => void n (as.map Attr.lined) (rest.lined false)

/-- Whether a CR stands before what follows a document. -/
def endsCr (cr : Bool) : Source → Bool
  | nil => cr
  | text t rest => rest.endsCr (Markup.endsCr cr t)
  | elem _ _ _ rest => rest.endsCr false
  | void _ _ rest => rest.endsCr false

/-- The document that is meant, without the NULs. -/
def dom : Source → Dom
  | nil => .nil
  | text t rest => (Dom.chars (shown t)).append rest.dom
  | elem n as kids rest => .elem n (as.map Attr.dom) kids.dom rest.dom
  | void n as rest => .elem n (as.map Attr.dom) .nil rest.dom

/-- The document that is to be read. -/
def read (m : Source) : Dom := (m.lined false).dom

/-- One document after the other. -/
def append : Source → Source → Source
  | nil, m => m
  | text t rest, m => text t (rest.append m)
  | elem n as kids rest, m => elem n as kids (rest.append m)
  | void n as rest, m => void n as (rest.append m)

/-- The documents of a list, one after the other. -/
def concat (ms : List Source) : Source := ms.foldr append nil

/-- Data on its own. -/
def data (t : Text) : Source := text t nil

/-- An element on its own. -/
def el (name : String) (attrs : List Attr) (kids : List Source) : Source :=
  elem name.toList attrs (concat kids) nil

/-- An element without content. -/
def single (name : String) (attrs : List Attr) : Source := void name.toList attrs nil

end Source

/-- An attribute behind one space. -/
def attr (name : String) (value : Text) : Attr := ⟨[' '], name.toList, value⟩

/-- The name of an element. -/
def isTagName : Text → Bool
  | [] => false
  | c :: n => c.isLower && n.all isNameChar

/-- The attribute stands apart, and its name is one. -/
def Attr.wellFormed (a : Attr) : Bool :=
  a.gap ≠ [] && a.gap.all isSpace && a.name ≠ [] && a.name.all isNameChar

/-- The attributes of a tag. -/
def attrsWellFormed (as : List Attr) : Bool :=
  as.all Attr.wellFormed && decide (as.map Attr.name).Nodup

/-- The names are names, and every element may stand where it stands: nothing about the data. -/
def Source.wellFormed (opened : List Text) : Source → Bool
  | nil => true
  | text _ rest => rest.wellFormed opened
  | elem n as kids rest =>
    (isTagName n && !(n ∈ voidNames) && allowed opened n && attrsWellFormed as) &&
      (kids.wellFormed (n :: opened) && rest.wellFormed opened)
  | void n as rest =>
    (isTagName n && n ∈ voidNames && attrsWellFormed as) && rest.wellFormed opened

/-! ### What is written is read -/

variable {c : Char} {n t k : Text} {as : Attrs} {st : List Opened} {d : Dom}

@[simp] theorem escape_append (t u : Text) : escape (t ++ u) = escape t ++ escape u :=
  List.flatMap_append

/-- A character is one of those with a meaning of their own, or written as itself. -/
theorem mem_marks_or (c : Char) : c ∈ references.map Prod.snd ∨
    letter c = [c] ∧ c ≠ '&' ∧ c ≠ '<' ∧ c ≠ '"' := by
  by_cases hmark : c ∈ references.map Prod.snd
  · exact Or.inl hmark
  · have hnone : references.find? (fun p => p.2 == c) = none := by
      rw [List.find?_eq_none]
      intro p hp heq
      exact hmark (List.mem_map.mpr ⟨p, hp, eq_of_beq heq⟩)
    refine Or.inr ⟨by rw [letter, hnone], ?_, ?_, ?_⟩
    all_goals
      intro heq
      exact hmark (heq ▸ by decide)

/-- Data without characters that have a meaning of their own is written as it is. -/
theorem escape_of_plain (h : ∀ c ∈ t, c ∉ references.map Prod.snd) : escape t = t := by
  induction t with
  | nil => rfl
  | cons c t ih =>
    have hcons : escape (c :: t) = letter c ++ escape t := List.flatMap_cons
    have hletter : letter c = [c] := ((mem_marks_or c).resolve_left (h c List.mem_cons_self)).1
    rw [hcons, hletter, ih fun x hx => h x (List.mem_cons_of_mem c hx)]
    rfl

namespace Reader

@[simp] theorem feed_nil (r : Reader) : r.feed [] = r := rfl

@[simp] theorem feed_cons (r : Reader) (c : Char) (t : Text) :
    r.feed (c :: t) = (r.next c).feed t := rfl

theorem feed_append (r : Reader) (t u : Text) : r.feed (t ++ u) = (r.feed t).feed u :=
  List.foldl_append

/-- Outside the tags, a written character is read as itself. -/
theorem feed_letter (c : Char) :
    feed ⟨.text, st, d⟩ (letter c) = ⟨.text, st, d.append (.chars (shown [c]))⟩ := by
  obtain hmark | ⟨hletter, hamp, hlt, -⟩ := mem_marks_or c
  · simp only [references, List.map_cons, List.map_nil, List.mem_cons, List.not_mem_nil,
      or_false] at hmark
    rcases hmark with rfl | rfl | rfl | rfl | rfl <;> rfl
  · rw [hletter]
    simp [next, put, hlt, hamp]

/-- Within a value, a written character is read as itself. -/
theorem feed_letter_value (a v : Text) (c : Char) :
    feed ⟨.value n as a v, st, d⟩ (letter c) = ⟨.value n as a (v ++ [kept c]), st, d⟩ := by
  obtain hmark | ⟨hletter, hamp, -, hquot⟩ := mem_marks_or c
  · simp only [references, List.map_cons, List.map_nil, List.mem_cons, List.not_mem_nil,
      or_false] at hmark
    rcases hmark with rfl | rfl | rfl | rfl | rfl <;> rfl
  · rw [hletter]
    simp [next, turn, hquot, hamp]

/-- Escaped data is read as data. -/
theorem feed_escape (t : Text) :
    feed ⟨.text, st, d⟩ (escape t) = ⟨.text, st, d.append (.chars (shown t))⟩ := by
  induction t generalizing d with
  | nil => simp [escape, shown, Dom.chars]
  | cons c t ih =>
    have hcons : escape (c :: t) = letter c ++ escape t := List.flatMap_cons
    have hshown : shown (c :: t) = shown [c] ++ shown t := List.filter_append [c] t
    rw [hcons, feed_append, feed_letter, ih, Dom.append_assoc, hshown, Dom.chars_append]

/-- Escaped data is read as the value. -/
theorem feed_escape_value (a v t : Text) :
    feed ⟨.value n as a v, st, d⟩ (escape t) = ⟨.value n as a (v ++ t.map kept), st, d⟩ := by
  induction t generalizing v with
  | nil => simp [escape]
  | cons c t ih =>
    have hcons : escape (c :: t) = letter c ++ escape t := List.flatMap_cons
    rw [hcons, feed_append, feed_letter_value, ih, List.append_assoc, List.singleton_append,
      List.map_cons]

/-- A character of a name is none that ends one. -/
theorem of_isNameChar (h : isNameChar c = true) : c ≠ '>' ∧ c ≠ '=' ∧ isSpace c = false := by
  refine ⟨?_, ?_, ?_⟩
  · rintro rfl
    exact absurd h (by decide)
  · rintro rfl
    exact absurd h (by decide)
  · cases hspace : isSpace c with
    | false => rfl
    | true =>
      simp only [isSpace, Bool.or_eq_true, beq_iff_eq] at hspace
      rcases hspace with (rfl | rfl) | rfl <;> exact absurd h (by decide)

theorem feed_tagName {m : Text} (hm : m.all isNameChar = true) (n : Text) :
    feed ⟨.tagName n, st, d⟩ m = ⟨.tagName (n ++ m), st, d⟩ := by
  induction m generalizing n with
  | nil => simp
  | cons c m ih =>
    rw [List.all_cons, Bool.and_eq_true] at hm
    obtain ⟨hgt, -, hspace⟩ := of_isNameChar hm.1
    simp [next, turn, hgt, hspace, hm.1, ih hm.2]

theorem feed_endName {m : Text} (hm : m.all isNameChar = true) (n : Text) :
    feed ⟨.endName n, st, d⟩ m = ⟨.endName (n ++ m), st, d⟩ := by
  induction m generalizing n with
  | nil => simp
  | cons c m ih =>
    rw [List.all_cons, Bool.and_eq_true] at hm
    obtain ⟨hgt, -, -⟩ := of_isNameChar hm.1
    simp [next, turn, hgt, hm.1, ih hm.2]

theorem feed_attrName {m : Text} (hm : m.all isNameChar = true) (a : Text) :
    feed ⟨.attrName n as a, st, d⟩ m = ⟨.attrName n as (a ++ m), st, d⟩ := by
  induction m generalizing a with
  | nil => simp
  | cons c m ih =>
    rw [List.all_cons, Bool.and_eq_true] at hm
    obtain ⟨-, heq, -⟩ := of_isNameChar hm.1
    simp [next, turn, heq, hm.1, ih hm.2]

/-- Space between the attributes is skipped. -/
theorem feed_gap {g : Text} (hg : g.all isSpace = true) :
    feed ⟨.beforeAttr n as, st, d⟩ g = ⟨.beforeAttr n as, st, d⟩ := by
  induction g with
  | nil => rfl
  | cons c g ih =>
    rw [List.all_cons, Bool.and_eq_true] at hg
    have hgt : c ≠ '>' := by
      rintro rfl
      exact absurd hg.1 (by decide)
    simp [next, hgt, hg.1, ih hg.2]

/-- Where an attribute may begin: right behind the name, or behind a value. -/
def Between (n : Text) (as : Attrs) (p : Phase) : Prop :=
  (p = .tagName n ∧ as = []) ∨ p = .afterValue n as

/-- An attribute is read. -/
theorem feed_attr {p : Phase} (hp : Between n as p) {a : Attr} (ha : a.wellFormed = true)
    (hnew : a.name ∉ as.map Prod.fst) (k : Text) :
    feed ⟨p, st, d⟩ (a.write k) = feed ⟨.afterValue n (as ++ [a.dom]), st, d⟩ k := by
  obtain ⟨gap, name, value⟩ := a
  simp only [Attr.wellFormed, Bool.and_eq_true, decide_eq_true_eq] at ha hnew
  obtain ⟨⟨⟨hgap, hspaces⟩, hname⟩, hchars⟩ := ha
  obtain ⟨g, gap, rfl⟩ := List.exists_cons_of_ne_nil hgap
  obtain ⟨x, name, rfl⟩ := List.exists_cons_of_ne_nil hname
  rw [List.all_cons, Bool.and_eq_true] at hspaces hchars
  have hgt : g ≠ '>' := by
    rintro rfl
    exact absurd hspaces.1 (by decide)
  obtain ⟨hx, -, hxspace⟩ := of_isNameChar hchars.1
  -- the first space ends what stands before, the others are skipped
  have hstart : feed ⟨p, st, d⟩ (g :: gap) = ⟨.beforeAttr n as, st, d⟩ := by
    have hfirst : next ⟨p, st, d⟩ g = ⟨.beforeAttr n as, st, d⟩ := by
      obtain ⟨rfl, rfl⟩ | rfl := hp
      · simp [next, turn, hgt, hspaces.1]
      · simp [next, turn, hgt, hspaces.1]
    rw [feed_cons, hfirst, feed_gap hspaces.2]
  have hbegin : next ⟨.beforeAttr n as, st, d⟩ x = ⟨.attrName n as [x], st, d⟩ := by
    simp [next, turn, hx, hxspace, hchars.1]
  have hequals : next ⟨.attrName n as (x :: name), st, d⟩ '=' =
      ⟨.beforeValue n as (x :: name), st, d⟩ := by
    simp [next, turn, hnew]
  calc feed ⟨p, st, d⟩ (Attr.write ⟨g :: gap, x :: name, value⟩ k)
      = feed ⟨.attrName n as [x], st, d⟩ (name ++ '=' :: '"' :: (escape value ++ '"' :: k)) := by
        rw [Attr.write, feed_append, hstart, List.cons_append, feed_cons, hbegin]
    _ = feed ⟨.value n as (x :: name) [], st, d⟩ (escape value ++ '"' :: k) := by
        rw [feed_append, feed_attrName hchars.2, List.singleton_append, feed_cons, hequals]
        rfl
    _ = feed ⟨.afterValue n (as ++ [Attr.dom ⟨g :: gap, x :: name, value⟩]), st, d⟩ k := by
        rw [feed_append, feed_escape_value, List.nil_append, feed_cons]
        rfl

/-- What ends a start tag. -/
theorem next_gt {p : Phase} (hp : Between n as p) :
    next ⟨p, st, d⟩ '>' = openTag ⟨p, st, d⟩ n as := by
  obtain ⟨rfl, rfl⟩ | rfl := hp <;> simp [next]

/-- The attributes of a tag are read, up to its end. -/
theorem feed_attrs {p : Phase} (hp : Between n as p) {attrs : List Attr}
    (hwf : ∀ a ∈ attrs, a.wellFormed = true)
    (hnodup : (as.map Prod.fst ++ attrs.map Attr.name).Nodup) (k : Text) :
    feed ⟨p, st, d⟩ (writeAttrs attrs ('>' :: k)) =
      feed (openTag ⟨.text, st, d⟩ n (as ++ attrs.map Attr.dom)) k := by
  induction attrs generalizing as p with
  | nil =>
    have hsame : openTag ⟨p, st, d⟩ n as = openTag ⟨.text, st, d⟩ n as := by
      simp [openTag, turn]
    rw [writeAttrs, feed_cons, next_gt hp, hsame, List.map_nil, List.append_nil]
  | cons a attrs ih =>
    have hnew : a.name ∉ as.map Prod.fst := by
      intro hmem
      exact (List.nodup_append.mp hnodup).2.2 _ hmem _ List.mem_cons_self rfl
    have hrest : ((as ++ [a.dom]).map Prod.fst ++ attrs.map Attr.name).Nodup := by
      simpa [Attr.dom] using hnodup
    rw [writeAttrs, feed_attr hp (hwf a List.mem_cons_self) hnew,
      ih (Or.inr rfl) (fun b hb => hwf b (List.mem_cons_of_mem a hb)) hrest]
    simp

/-- A start tag is read. -/
theorem feed_startTag {m : Text} (hm : isTagName m = true) {attrs : List Attr}
    (hwf : attrsWellFormed attrs = true) (k : Text) :
    feed ⟨.text, st, d⟩ ('<' :: (m ++ writeAttrs attrs ('>' :: k))) =
      feed (openTag ⟨.text, st, d⟩ m (attrs.map Attr.dom)) k := by
  cases m with
  | nil => exact absurd hm (by decide)
  | cons c m =>
    rw [isTagName, Bool.and_eq_true] at hm
    rw [attrsWellFormed, Bool.and_eq_true, List.all_eq_true, decide_eq_true_eq] at hwf
    have hslash : c ≠ '/' := by
      rintro rfl
      exact absurd hm.1 (by decide)
    have hname : feed ⟨.text, st, d⟩ ('<' :: c :: m) = ⟨.tagName (c :: m), st, d⟩ := by
      have hfirst : next (next ⟨.text, st, d⟩ '<') c = ⟨.tagName [c], st, d⟩ := by
        simp [next, turn, hslash, hm.1]
      rw [feed_cons, feed_cons, hfirst, feed_tagName hm.2, List.singleton_append]
    have hattrs := @feed_attrs (c :: m) [] st d _ (Or.inl ⟨rfl, rfl⟩) attrs hwf.1 hwf.2 k
    rw [← List.cons_append, feed_append, hname, hattrs, List.nil_append]

/-- An end tag is read. -/
theorem feed_endTag {m : Text} (hm : isTagName m = true) (k : Text) :
    feed ⟨.text, st, d⟩ ('<' :: '/' :: (m ++ '>' :: k)) =
      feed (closeTag ⟨.text, st, d⟩ m) k := by
  cases m with
  | nil => exact absurd hm (by decide)
  | cons c m =>
    rw [isTagName, Bool.and_eq_true] at hm
    have hfirst : next (next (next ⟨.text, st, d⟩ '<') '/') c = ⟨.endName [c], st, d⟩ := by
      simp [next, turn, hm.1]
    have hclose : next ⟨.endName (c :: m), st, d⟩ '>' = closeTag ⟨.text, st, d⟩ (c :: m) := by
      simp only [next, closeTag, turn, if_true]
    rw [List.cons_append, feed_cons, feed_cons, feed_cons, hfirst, feed_append, feed_endName hm.2,
      List.singleton_append, feed_cons, hclose]

/-- A document that is well formed is read behind whatever was read before, within whatever
elements are open, and whatever follows it. -/
theorem feed_writeBefore {m : Source} (hm : m.wellFormed (st.map Opened.name) = true) (k : Text) :
    feed ⟨.text, st, d⟩ (m.writeBefore k) = feed ⟨.text, st, d.append m.dom⟩ k := by
  induction m generalizing st d k with
  | nil => simp [Source.writeBefore, Source.dom]
  | text t rest ih =>
    rw [Source.writeBefore, feed_append, feed_escape, ih hm, Source.dom, Dom.append_assoc]
  | elem n as kids rest ihkids ihrest =>
    simp only [Source.wellFormed, Bool.and_eq_true, Bool.not_eq_true', decide_eq_false_iff_not]
      at hm
    obtain ⟨⟨⟨⟨hname, hvoid⟩, hallowed⟩, has⟩, hkids, hrest⟩ := hm
    have hopen : openTag ⟨.text, st, d⟩ n (as.map Attr.dom) =
        ⟨.text, ⟨n, as.map Attr.dom, d⟩ :: st, .nil⟩ := by
      rw [openTag, if_neg hvoid, if_pos hallowed]
    rw [Source.writeBefore, feed_startTag hname has, hopen,
      @ihkids (⟨n, as.map Attr.dom, d⟩ :: st) .nil hkids, Dom.nil_append,
      feed_endTag hname]
    simp only [closeTag, if_true]
    rw [ihrest hrest, Dom.append_assoc, Source.dom]
    rfl
  | void n as rest ih =>
    simp only [Source.wellFormed, Bool.and_eq_true, decide_eq_true_eq] at hm
    obtain ⟨⟨⟨hname, hvoid⟩, has⟩, hrest⟩ := hm
    have hopen : openTag ⟨.text, st, d⟩ n (as.map Attr.dom) =
        ⟨.text, st, d.append (.elem n (as.map Attr.dom) .nil .nil)⟩ := by
      rw [openTag, if_pos hvoid]
    rw [Source.writeBefore, feed_startTag hname has, hopen, ih hrest, Dom.append_assoc, Source.dom]
    rfl

end Reader

/-! ### Line ends -/

theorem lines_append (cr : Bool) (t u : Text) :
    lines cr (t ++ u) = lines cr t ++ lines (endsCr cr t) u := by
  induction t generalizing cr with
  | nil => rfl
  | cons c t ih =>
    rw [List.cons_append, lines, lines, endsCr]
    split_ifs with hcr hlf
    · rw [ih, hcr, List.cons_append]
      rfl
    · rw [ih, decide_eq_false hcr]
    · rw [ih, decide_eq_false hcr, List.cons_append]

/-- A character that ends no line. -/
theorem lines_cons {c : Char} (hcr : c ≠ '\r') (hlf : c ≠ '\n') (cr : Bool) (t : Text) :
    lines cr (c :: t) = c :: lines false t := by
  rw [lines, if_neg hcr, if_neg fun h => hlf h.1]

/-- A text without a CR, behind none. -/
theorem lines_of_not_mem (h : '\r' ∉ t) : lines false t = t ∧ endsCr false t = false := by
  induction t with
  | nil => exact ⟨rfl, rfl⟩
  | cons c t ih =>
    have hcr : c ≠ '\r' := fun heq => h (heq ▸ List.mem_cons_self)
    obtain ⟨hlines, hends⟩ := ih fun hmem => h (List.mem_cons_of_mem c hmem)
    rw [lines, if_neg hcr, if_neg (by simp), endsCr, decide_eq_false hcr, hlines]
    exact ⟨rfl, hends⟩

theorem lines_append_of_not_mem (h : '\r' ∉ t) (u : Text) :
    lines false (t ++ u) = t ++ lines false u := by
  rw [lines_append, (lines_of_not_mem h).1, (lines_of_not_mem h).2]

theorem endsCr_append (cr : Bool) (t u : Text) : endsCr cr (t ++ u) = endsCr (endsCr cr t) u := by
  induction t generalizing cr with
  | nil => rfl
  | cons c t ih => exact ih _

/-- Line ends are none of the characters that are escaped. -/
theorem lines_letter (cr : Bool) (c : Char) :
    lines cr (letter c) = escape (lines cr [c]) ∧ endsCr cr (letter c) = endsCr cr [c] := by
  obtain hmark | ⟨hplain, -⟩ := mem_marks_or c
  · simp only [references, List.map_cons, List.map_nil, List.mem_cons, List.not_mem_nil,
      or_false] at hmark
    rcases hmark with rfl | rfl | rfl | rfl | rfl <;> cases cr <;> decide
  · have hself : escape [c] = [c] := by simp [escape, hplain]
    rw [hplain]
    refine ⟨?_, rfl⟩
    rw [lines]
    split_ifs
    · decide
    · rfl
    · exact hself.symm

theorem lines_escape (cr : Bool) (t : Text) :
    lines cr (escape t) = escape (lines cr t) ∧ endsCr cr (escape t) = endsCr cr t := by
  induction t generalizing cr with
  | nil => exact ⟨rfl, rfl⟩
  | cons c t ih =>
    have hcons : escape (c :: t) = letter c ++ escape t := List.flatMap_cons
    obtain ⟨hletter, hends⟩ := lines_letter cr c
    constructor
    · have hsplit : lines cr (c :: t) = lines cr [c] ++ lines (endsCr cr [c]) t :=
        lines_append cr [c] t
      rw [hcons, lines_append, hletter, hends, (ih _).1, hsplit, escape_append]
    · rw [hcons, endsCr_append, hends, (ih _).2]
      rfl

theorem not_mem_of_isNameChar (h : t.all isNameChar = true) : '\r' ∉ t := fun hmem =>
  absurd (List.all_eq_true.mp h _ hmem) (by decide)

theorem not_mem_of_isTagName (h : isTagName t = true) : '\r' ∉ t := by
  cases t with
  | nil => exact absurd h (by decide)
  | cons c t =>
    rw [isTagName, Bool.and_eq_true] at h
    rw [List.mem_cons, not_or]
    refine ⟨?_, not_mem_of_isNameChar h.2⟩
    rintro rfl
    exact absurd h.1 (by decide)

theorem lines_writeAttrs {attrs : List Attr} (hwf : attrsWellFormed attrs = true) (k : Text) :
    lines false (writeAttrs attrs k) = writeAttrs (attrs.map Attr.lined) (lines false k) := by
  rw [attrsWellFormed, Bool.and_eq_true, List.all_eq_true] at hwf
  have hall := hwf.1
  clear hwf
  induction attrs with
  | nil => rfl
  | cons a attrs ih =>
    obtain ⟨gap, name, value⟩ := a
    have ha : Attr.wellFormed ⟨gap, name, value⟩ = true := hall _ List.mem_cons_self
    simp only [Attr.wellFormed, Bool.and_eq_true, decide_eq_true_eq] at ha
    have hgap : '\r' ∉ gap := fun hmem =>
      absurd (List.all_eq_true.mp ha.1.1.2 _ hmem) (by decide)
    have hquote : ∀ (cr : Bool) (u : Text), lines cr ('"' :: u) = '"' :: lines false u :=
      lines_cons (by decide) (by decide)
    rw [writeAttrs, Attr.write, lines_append_of_not_mem hgap,
      lines_append_of_not_mem (not_mem_of_isNameChar ha.2), lines_cons (by decide) (by decide),
      hquote, lines_append, (lines_escape _ _).1, hquote,
      ih fun b hb => hall b (List.mem_cons_of_mem _ hb)]
    rfl

theorem attrsWellFormed_lined (attrs : List Attr) :
    attrsWellFormed (attrs.map Attr.lined) = attrsWellFormed attrs := by
  have hnames : (attrs.map Attr.lined).map Attr.name = attrs.map Attr.name := by
    rw [List.map_map]
    rfl
  rw [attrsWellFormed, attrsWellFormed, hnames, List.all_map]
  rfl

namespace Source

theorem wellFormed_lined (m : Source) (opened : List Text) (cr : Bool) :
    (m.lined cr).wellFormed opened = m.wellFormed opened := by
  induction m generalizing opened cr with
  | nil => rfl
  | text t rest ih => exact ih opened _
  | elem n as kids rest ihkids ihrest =>
    simp only [lined, wellFormed, attrsWellFormed_lined, ihkids, ihrest]
  | void n as rest ih => simp only [lined, wellFormed, attrsWellFormed_lined, ih]

/-- Line ends are normalized in the data: there are none in the markup around it. -/
theorem lines_writeBefore {m : Source} {opened : List Text} (hm : m.wellFormed opened = true)
    (cr : Bool) (k : Text) :
    lines cr (m.writeBefore k) = (m.lined cr).writeBefore (lines (m.endsCr cr) k) := by
  have hmark : ∀ {c : Char}, c ∈ ['<', '>', '/'] → ∀ (cr : Bool) (u : Text),
      lines cr (c :: u) = c :: lines false u := by
    intro c hc
    simp only [List.mem_cons, List.not_mem_nil, or_false] at hc
    rcases hc with rfl | rfl | rfl <;> exact lines_cons (by decide) (by decide)
  induction m generalizing opened cr k with
  | nil => rfl
  | text t rest ih =>
    rw [writeBefore, lines_append, (lines_escape cr t).1, (lines_escape cr t).2, ih hm]
    rfl
  | elem n as kids rest ihkids ihrest =>
    simp only [wellFormed, Bool.and_eq_true] at hm
    obtain ⟨⟨⟨⟨hname, -⟩, -⟩, has⟩, hkids, hrest⟩ := hm
    have hn := not_mem_of_isTagName hname
    rw [writeBefore, hmark (by decide), lines_append_of_not_mem hn, lines_writeAttrs has,
      hmark (by decide), ihkids hkids, hmark (by decide), hmark (by decide),
      lines_append_of_not_mem hn, hmark (by decide), ihrest hrest]
    rfl
  | void n as rest ih =>
    simp only [wellFormed, Bool.and_eq_true] at hm
    obtain ⟨⟨⟨hname, -⟩, has⟩, hrest⟩ := hm
    rw [writeBefore, hmark (by decide), lines_append_of_not_mem (not_mem_of_isTagName hname),
      lines_writeAttrs has, hmark (by decide), ih hrest]
    rfl

end Source

/-- What is written is read, whatever the data. -/
theorem parse_write {m : Source} (hm : m.wellFormed [] = true) : parse m.write = some m.read := by
  have hlined : (m.lined false).wellFormed [] = true := (m.wellFormed_lined [] false).trans hm
  have hread : Reader.feed ⟨.text, [], .nil⟩ (lines false m.write) = ⟨.text, [], m.read⟩ := by
    rw [Source.write, Source.lines_writeBefore hm]
    exact @Reader.feed_writeBefore [] .nil _ hlined _
  simp [parse, hread]

/-! ### Documents from parts -/

theorem writeAttrs_eq (as : List Attr) (k : Text) : writeAttrs as k = writeAttrs as [] ++ k := by
  induction as with
  | nil => rfl
  | cons a as ih =>
    have hattr : ∀ u, a.write u = a.write [] ++ u := fun u => by simp [Attr.write]
    rw [writeAttrs, writeAttrs, hattr, ih, hattr (writeAttrs as []), List.append_assoc]

namespace Source

variable {m m' : Source} {opened : List Text}

theorem writeBefore_eq (m : Source) (k : Text) : m.writeBefore k = m.write ++ k := by
  have hall : ∀ u, m.writeBefore (u ++ k) = m.writeBefore u ++ k := by
    induction m with
    | nil => intro u; rfl
    | text t rest ih => intro u; simp [writeBefore, ih]
    | elem n as kids rest ihkids ihrest =>
      intro u
      -- what follows the content is handed on as it is
      have hkids : ∀ v, kids.writeBefore ('<' :: '/' :: (n ++ '>' :: (v ++ k))) =
          kids.writeBefore ('<' :: '/' :: (n ++ '>' :: v)) ++ k := fun v => by
        rw [← ihkids]
        simp
      rw [writeBefore, writeBefore, ihrest, hkids, writeAttrs_eq, writeAttrs_eq as (_ :: _)]
      simp
    | void n as rest ih =>
      intro u
      rw [writeBefore, writeBefore, ih, writeAttrs_eq, writeAttrs_eq as (_ :: _)]
      simp
  exact hall []

theorem writeBefore_append (k : Text) :
    (m.append m').writeBefore k = m.writeBefore (m'.writeBefore k) := by
  induction m with
  | nil => rfl
  | text t rest ih => simp only [append, writeBefore, ih]
  | elem n as kids rest _ ih => simp only [append, writeBefore, ih]
  | void n as rest ih => simp only [append, writeBefore, ih]

theorem write_append : (m.append m').write = m.write ++ m'.write :=
  (writeBefore_append []).trans (writeBefore_eq m _)

@[simp] theorem wellFormed_append :
    (m.append m').wellFormed opened = (m.wellFormed opened && m'.wellFormed opened) := by
  induction m with
  | nil => rfl
  | text t rest ih => exact ih
  | elem n as kids rest _ ih => simp only [append, wellFormed, ih, Bool.and_assoc]
  | void n as rest ih => simp only [append, wellFormed, ih, Bool.and_assoc]

theorem write_concat (ms : List Source) : (concat ms).write = (ms.map write).flatten := by
  induction ms with
  | nil => rfl
  | cons m ms ih =>
    have hcons : concat (m :: ms) = m.append (concat ms) := rfl
    rw [hcons, write_append, ih, List.map_cons, List.flatten_cons]

theorem wellFormed_concat {ms : List Source} (h : ∀ m ∈ ms, m.wellFormed opened = true) :
    (concat ms).wellFormed opened = true := by
  induction ms with
  | nil => rfl
  | cons m ms ih =>
    have hcons : concat (m :: ms) = m.append (concat ms) := rfl
    rw [hcons, wellFormed_append, h m List.mem_cons_self,
      ih fun m' hm' => h m' (List.mem_cons_of_mem m hm')]
    rfl

end Source

variable {α : Type*} {html : Option Text} {doc : Option Source}

/-- Markup that may fail to be made is read where it is made. -/
theorem bind_parse (h : html = doc.map Source.write)
    (hwf : ∀ m, doc = some m → m.wellFormed [] = true) : html.bind parse = doc.map Source.read := by
  cases doc with
  | none => rw [h]; rfl
  | some m =>
    rw [h]
    exact parse_write (hwf m rfl)

/-- Rows that may fail to be made, one after the other. -/
theorem mapM_write {f : α → Option Text} {g : α → Option Source}
    (h : ∀ a, f a = (g a).map Source.write) (xs : List α) :
    (xs.mapM f).map List.flatten = ((xs.mapM g).map Source.concat).map Source.write := by
  have hall : xs.mapM f = (xs.mapM g).map (List.map Source.write) := by
    induction xs with
    | nil => rfl
    | cons x xs ih =>
      rw [List.mapM_cons, List.mapM_cons, h, ih]
      cases g x with
      | none => rfl
      | some m => cases xs.mapM g <;> rfl
  rw [hall, Option.map_map, Option.map_map]
  congr 1
  funext ms
  exact (Source.write_concat ms).symm

/-- Rows that are well formed make a document that is. -/
theorem wellFormed_of_mapM {g : α → Option Source} {xs : List α} {m : Source}
    (hg : ∀ a m, g a = some m → m.wellFormed [] = true)
    (hm : (xs.mapM g).map Source.concat = some m) : m.wellFormed [] = true := by
  obtain ⟨ms, hms, rfl⟩ := Option.map_eq_some_iff.mp hm
  refine Source.wellFormed_concat fun m hmem => ?_
  induction xs generalizing ms with
  | nil =>
    obtain rfl : ms = [] := by simpa using hms.symm
    exact absurd hmem List.not_mem_nil
  | cons x xs ih =>
    rw [List.mapM_cons] at hms
    cases hx : g x with
    | none => simp [hx] at hms
    | some m' =>
      cases hxs : xs.mapM g with
      | none => simp [hx, hxs] at hms
      | some ms' =>
        obtain rfl : m' :: ms' = ms := by simpa [hx, hxs] using hms
        rcases List.mem_cons.mp hmem with rfl | hmem
        · exact hg x _ hx
        · exact ih ms' hxs (by rw [hxs]; rfl) hmem

end Markup
