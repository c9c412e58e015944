import IstanbulMonitor.Json.Read
import Mathlib.Data.List.TakeWhile

/-!
# A source is read back from its characters

`Source.WellFormed` says that the parts of a source are spelled as the grammar has them: blanks are
blanks, digits are digits, no character of a string stands where an escape is needed. Such a source
is what the reader finds at the start of its own characters, whatever follows them, as long as what
follows does not go on with a number (`readSource_chars`). So the text of a source reads as that
source (`Source.read?_text`).
-/

set_option autoImplicit false

namespace IstanbulMonitor.Json

/-! ## Runs of characters -/

/-- A text that does not start with a character of the given kind. -/
def Stops (p : Char → Bool) (cs : List Char) : Prop := ∀ c ∈ cs.head?, p c = false

theorem stops_nil (p : Char → Bool) : Stops p [] := fun _ h => nomatch h

theorem stops_cons {p : Char → Bool} {c : Char} {cs : List Char} :
    Stops p (c :: cs) ↔ p c = false := by
  simp [Stops]

/-- A run of characters of one kind ends where the next text does not go on with it. -/
theorem span_append {p : Char → Bool} {run rest : List Char} (hrun : ∀ c ∈ run, p c = true)
    (hrest : Stops p rest) :
    (run ++ rest).takeWhile p = run ∧ (run ++ rest).dropWhile p = rest := by
  rw [List.takeWhile_append_of_pos hrun, List.dropWhile_append_of_pos hrun]
  cases rest with
  | nil => simp
  | cons c rest =>
      have hc := stops_cons.mp hrest
      simp [hc]

/-- Only blanks. -/
def IsBlank (b : Blank) : Prop := ∀ c ∈ b, isBlank c = true

theorem readBlank_append {b : Blank} {rest : List Char} (hb : IsBlank b)
    (hrest : Stops isBlank rest) : readBlank (b ++ rest) = (b, rest) := by
  obtain ⟨htake, hdrop⟩ := span_append hb hrest
  rw [readBlank, htake, hdrop]

/-! ## Strings -/

/-- A piece that is spelled as the grammar has it. -/
def Piece.WellFormed : Piece → Prop
  | .plain c => c ≠ '"' ∧ c ≠ '\\' ∧ 32 ≤ c.toNat
  | .short letter => (unescape? letter).isSome
  | .unit a b c d => isHexDigit a ∧ isHexDigit b ∧ isHexDigit c ∧ isHexDigit d

/-- The pieces of a string are read up to the quote that closes it. -/
theorem readBody_append (body : List Piece) (h : ∀ p ∈ body, p.WellFormed) (rest : List Char) :
    readBody (body.flatMap Piece.chars ++ '"' :: rest) = some (body, rest) := by
  induction body with
  | nil => rfl
  | cons p body ih =>
      have hp := h p List.mem_cons_self
      have hbody := ih fun q hq => h q (List.mem_cons_of_mem p hq)
      rw [List.flatMap_cons, List.append_assoc]
      cases p with
      | plain c =>
          obtain ⟨hquote, hslash, hcontrol⟩ := hp
          show readBody (c :: _) = _
          simp [readBody, hslash, Nat.not_lt.mpr hcontrol, hbody]
      | short letter =>
          -- an escape of four digits is not one of one letter
          have hletter : letter ≠ 'u' := by
            rintro rfl
            cases hp
          have hshort : (unescape? letter).isSome = true := hp
          show readBody ('\\' :: letter :: _) = _
          simp [readBody, hletter, hshort, hbody]
      | unit a b c d =>
          obtain ⟨ha, hb, hc, hd⟩ := hp
          show readBody ('\\' :: 'u' :: a :: b :: c :: d :: _) = _
          simp [readBody, ha, hb, hc, hd, hbody]

/-! ## Numbers -/

/-- At least one digit, and only digits. -/
def IsDigits (digits : List Char) : Prop := digits ≠ [] ∧ ∀ c ∈ digits, isDigit c = true

/-- The digits of a whole number. -/
def IsWhole (digits : List Char) : Prop :=
  digits = ['0'] ∨ IsDigits digits ∧ digits.head? ≠ some '0'

/-- A number that is spelled as the grammar has it. -/
structure Numeral.WellFormed (n : Numeral) : Prop where
  whole : IsWhole n.whole
  fraction : ∀ digits ∈ n.fraction, IsDigits digits
  exponent : ∀ mark sign digits, n.exponent = some (mark, sign, digits) →
    (mark = 'e' ∨ mark = 'E') ∧ (sign = none ∨ sign = some '+' ∨ sign = some '-') ∧
      IsDigits digits

/-- A character with which a number may go on. -/
def continuesNumber (c : Char) : Bool := isDigit c || c == '.' || c == 'e' || c == 'E'

theorem Stops.of_continuesNumber {cs : List Char} (h : Stops continuesNumber cs) :
    Stops isDigit cs := by
  intro c hc
  have hstop := h c hc
  simp only [continuesNumber, Bool.or_eq_false_iff] at hstop
  exact hstop.1.1.1

theorem readDigits_append {digits rest : List Char} (h : IsDigits digits)
    (hrest : Stops isDigit rest) : readDigits (digits ++ rest) = some (digits, rest) := by
  obtain ⟨htake, hdrop⟩ := span_append h.2 hrest
  rw [readDigits, htake, hdrop]
  cases digits with
  | nil => exact absurd rfl h.1
  | cons c cs => rfl

theorem readWhole_append {digits rest : List Char} (h : IsWhole digits)
    (hrest : Stops isDigit rest) : readWhole (digits ++ rest) = some (digits, rest) := by
  rcases h with rfl | ⟨hdigits, hhead⟩
  · show readWhole ('0' :: rest) = _
    cases rest with
    | nil => rfl
    | cons c rest => simp [readWhole, stops_cons.mp hrest]
  · rw [← readDigits_append hdigits hrest]
    cases digits with
    | nil => exact absurd rfl hdigits.1
    | cons c cs =>
        have hc : c ≠ '0' := fun h => hhead (congrArg some h)
        simp [readWhole, hc]

/-- The characters of a fraction. -/
def fractionChars : Option (List Char) → List Char
  | some digits => '.' :: digits
  | none => []

theorem readFraction_append {fraction : Option (List Char)} {rest : List Char}
    (h : ∀ digits ∈ fraction, IsDigits digits)
    (hrest : Stops (fun c => isDigit c || c == '.') rest) :
    readFraction (fractionChars fraction ++ rest) = some (fraction, rest) := by
  cases fraction with
  | some digits =>
      have hstop : Stops isDigit rest := fun c hc => (Bool.or_eq_false_iff.mp (hrest c hc)).1
      show readFraction ('.' :: (digits ++ rest)) = _
      simp [readFraction, readDigits_append (h digits rfl) hstop]
  | none =>
      cases rest with
      | nil => rfl
      | cons c rest =>
          have hc := (Bool.or_eq_false_iff.mp (stops_cons.mp hrest)).2
          have hpoint : c ≠ '.' := by simpa using hc
          show readFraction (c :: rest) = _
          simp [readFraction, hpoint]

/-- The characters of an exponent. -/
def exponentChars : Option (Char × Option Char × List Char) → List Char
  | some (mark, sign, digits) => mark :: sign.toList ++ digits
  | none => []

theorem readExponent_append {exponent : Option (Char × Option Char × List Char)}
    {rest : List Char}
    (h : ∀ mark sign digits, exponent = some (mark, sign, digits) →
      (mark = 'e' ∨ mark = 'E') ∧ (sign = none ∨ sign = some '+' ∨ sign = some '-') ∧
        IsDigits digits)
    (hrest : Stops continuesNumber rest) :
    readExponent (exponentChars exponent ++ rest) = some (exponent, rest) := by
  cases exponent with
  | some parts =>
      obtain ⟨mark, sign, digits⟩ := parts
      obtain ⟨hmark, hsign, hdigits⟩ := h mark sign digits rfl
      have hread := readDigits_append hdigits hrest.of_continuesNumber
      have hreadSign : readSign (sign.toList ++ (digits ++ rest)) = (sign, digits ++ rest) := by
        rcases hsign with rfl | rfl | rfl
        · -- a digit is no sign
          cases digits with
          | nil => exact absurd rfl hdigits.1
          | cons c cs =>
              have hc := hdigits.2 c List.mem_cons_self
              show readSign (c :: _) = _
              have hplus : c ≠ '+' := by
                rintro rfl
                cases hc
              have hminus : c ≠ '-' := by
                rintro rfl
                cases hc
              simp [readSign, hplus, hminus]
        · rfl
        · rfl
      show readExponent (mark :: (sign.toList ++ digits ++ rest)) = _
      rw [List.append_assoc]
      simp [readExponent, hmark, hreadSign, hread]
  | none =>
      cases rest with
      | nil => rfl
      | cons c rest =>
          have hc := stops_cons.mp hrest
          simp only [continuesNumber, Bool.or_eq_false_iff, beq_eq_false_iff_ne] at hc
          show readExponent (c :: rest) = _
          simp [readExponent, hc.1.2, hc.2]

/-- A number is read up to a text that does not go on with it. -/
theorem readNumeral_append {n : Numeral} (h : n.WellFormed) {rest : List Char}
    (hrest : Stops continuesNumber rest) : readNumeral (n.chars ++ rest) = some (n, rest) := by
  obtain ⟨negative, whole, fraction, exponent⟩ := n
  have hpoint : Stops (fun c => isDigit c || c == '.') (exponentChars exponent ++ rest) := by
    cases exponent with
    | some parts =>
        obtain ⟨mark, sign, digits⟩ := parts
        refine stops_cons.mpr ?_
        rcases (h.exponent mark sign digits rfl).1 with rfl | rfl <;> rfl
    | none =>
        intro c hc
        have hstop := hrest c hc
        simp only [continuesNumber, Bool.or_eq_false_iff] at hstop ⊢
        exact hstop.1.1
  have hdigit : Stops isDigit (fractionChars fraction ++ (exponentChars exponent ++ rest)) := by
    cases fraction with
    | some digits => exact stops_cons.mpr rfl
    | none => exact fun c hc => (Bool.or_eq_false_iff.mp (hpoint c hc)).1
  have hwhole := readWhole_append h.whole hdigit
  have hfraction := readFraction_append h.fraction hpoint
  have hexponent := readExponent_append h.exponent hrest
  have hunsigned : ∀ b, readUnsigned b
      (whole ++ (fractionChars fraction ++ (exponentChars exponent ++ rest))) =
        some (⟨b, whole, fraction, exponent⟩, rest) := by
    intro b
    simp only [readUnsigned, hwhole, hfraction, hexponent, bind, Option.bind, pure]
  have hchars : (⟨negative, whole, fraction, exponent⟩ : Numeral).chars ++ rest =
      (if negative then ['-'] else []) ++
        (whole ++ (fractionChars fraction ++ (exponentChars exponent ++ rest))) := by
    simp only [Numeral.chars, List.append_assoc]
    rfl
  rw [hchars]
  cases negative with
  | true => exact hunsigned true
  | false =>
      rw [← hunsigned false]
      -- a whole number does not start with a sign
      have hhead : whole.head? ≠ some '-' := by
        rcases h.whole with rfl | ⟨hdigits, -⟩
        · decide
        · intro hminus
          have hminus := hdigits.2 '-' (List.mem_of_head? hminus)
          cases hminus
      cases whole with
      | nil =>
          rcases h.whole with hnil | ⟨hdigits, -⟩
          · cases hnil
          · exact absurd rfl hdigits.1
      | cons c cs =>
          have hc : c ≠ '-' := fun h => hhead (congrArg some h)
          show readNumeral (c :: _) = readUnsigned false (c :: _)
          simp [readNumeral, hc]

/-! ## Sources -/

mutual

/-- A source that is spelled as the grammar has it. -/
def Source.WellFormed : Source → Prop
  | .null => True
  | .bool _ => True
  | .number n => n.WellFormed
  | .string body => ∀ p ∈ body, p.WellFormed
  | .emptyArray inner => IsBlank inner
  | .array items => items ≠ [] ∧ itemsWellFormed items
  | .emptyObject inner => IsBlank inner
  | .object members => members ≠ [] ∧ entriesWellFormed members
termination_by structural s => s

/-- Items of an array that are. -/
def itemsWellFormed : List Item → Prop
  | [] => True
  | item :: items => item.WellFormed ∧ itemsWellFormed items
termination_by structural items => items

/-- An item that is. -/
def Item.WellFormed : Item → Prop
  | .mk before value after => IsBlank before ∧ value.WellFormed ∧ IsBlank after
termination_by structural item => item

/-- Members of an object that are. -/
def entriesWellFormed : List Entry → Prop
  | [] => True
  | entry :: entries => entry.WellFormed ∧ entriesWellFormed entries
termination_by structural entries => entries

/-- A member that is. -/
def Entry.WellFormed : Entry → Prop
  | .mk before name after item =>
    IsBlank before ∧ (∀ p ∈ name, p.WellFormed) ∧ IsBlank after ∧ item.WellFormed
termination_by structural entry => entry

end

theorem isBlank_of_isDigit {c : Char} (h : isDigit c = true) : isBlank c = false := by
  simp only [isBlank, Bool.or_eq_false_iff, beq_eq_false_iff_ne]
  refine ⟨⟨⟨?_, ?_⟩, ?_⟩, ?_⟩ <;> (rintro rfl; cases h)

theorem continuesNumber_of_isBlank {c : Char} (h : isBlank c = true) :
    continuesNumber c = false := by
  simp only [isBlank, Bool.or_eq_true, beq_iff_eq] at h
  rcases h with ((rfl | rfl) | rfl) | rfl <;> rfl

/-- The sign and the whole digits of a number come first. -/
theorem Numeral.WellFormed.exists_chars {n : Numeral} (h : n.WellFormed) :
    ∃ c cs, n.chars = c :: cs ∧ (c = '-' ∨ isDigit c = true) := by
  obtain ⟨negative, whole, fraction, exponent⟩ := n
  have hwhole : ∃ c cs, whole = c :: cs ∧ isDigit c = true := by
    rcases h.whole with hzero | ⟨⟨hne, hdigits⟩, -⟩
    · exact ⟨'0', [], hzero, rfl⟩
    · obtain ⟨c, cs, hcs⟩ := List.exists_cons_of_ne_nil hne
      exact ⟨c, cs, hcs, hdigits c (by rw [hcs]; exact List.mem_cons_self)⟩
  cases negative with
  | true => exact ⟨'-', _, rfl, Or.inl rfl⟩
  | false =>
      obtain ⟨c, cs, rfl, hc⟩ := hwhole
      exact ⟨c, _, rfl, Or.inr hc⟩

/-- A source starts with a character that is no blank and ends nothing. -/
theorem Source.WellFormed.exists_chars {s : Source} (h : s.WellFormed) :
    ∃ c cs, s.chars = c :: cs ∧ isBlank c = false ∧ c ≠ ']' ∧ c ≠ '\x7d' := by
  cases s with
  | null => exact ⟨'n', _, rfl, rfl, by decide, by decide⟩
  | bool b => cases b <;> exact ⟨_, _, rfl, rfl, by decide, by decide⟩
  | number n =>
      obtain ⟨c, cs, hchars, rfl | hc⟩ := Numeral.WellFormed.exists_chars h
      · exact ⟨'-', cs, hchars, rfl, by decide, by decide⟩
      · refine ⟨c, cs, hchars, isBlank_of_isDigit hc, ?_, ?_⟩
        · rintro rfl
          cases hc
        · rintro rfl
          cases hc
  | string body => exact ⟨'"', _, rfl, rfl, by decide, by decide⟩
  | emptyArray inner => exact ⟨'[', _, rfl, rfl, by decide, by decide⟩
  | array items => exact ⟨'[', _, rfl, rfl, by decide, by decide⟩
  | emptyObject inner => exact ⟨'\x7b', _, rfl, rfl, by decide, by decide⟩
  | object members => exact ⟨'\x7b', _, rfl, rfl, by decide, by decide⟩

theorem Source.WellFormed.exists_fuel {s : Source} (h : s.WellFormed) {fuel : Nat}
    (hfuel : 2 * s.chars.length ≤ fuel) : ∃ k, fuel = k + 1 := by
  obtain ⟨c, cs, hchars, -⟩ := h.exists_chars
  rw [hchars, List.length_cons] at hfuel
  exact ⟨fuel - 1, by omega⟩

/-- What starts with a digit or a minus sign is read as a number. -/
theorem readSource_number {fuel : Nat} {c : Char} {cs : List Char}
    (hc : c = '-' ∨ isDigit c = true) :
    readSource (fuel + 1) (c :: cs) =
      (readNumeral (c :: cs)).map fun (n, tail) => (.number n, tail) := by
  have hne : ∀ d, d ≠ '-' → isDigit d = false → c ≠ d := by
    rintro d hminus hdigit rfl
    rcases hc with rfl | hc
    · exact hminus rfl
    · rw [hc] at hdigit
      cases hdigit
  simp [readSource, hne 'n' (by decide) rfl, hne 't' (by decide) rfl, hne 'f' (by decide) rfl,
    hne '"' (by decide) rfl, hne '[' (by decide) rfl, hne '\x7b' (by decide) rfl]

/-! ## The main theorem -/

/-- A value is read with the blanks around it. -/
theorem readItem_append {fuel : Nat} {before after : Blank} {value : Source} {rest : List Char}
    (h : (Item.mk before value after).WellFormed) (hrest : Stops isBlank rest)
    (hread : readSource fuel (value.chars ++ (after ++ rest)) = some (value, after ++ rest)) :
    readItem (fuel + 1) (itemChars (.mk before value after) ++ rest) =
      some (.mk before value after, rest) := by
  obtain ⟨hbefore, hvalue, hafter⟩ := h
  obtain ⟨c, cs, hchars, hc, -⟩ := hvalue.exists_chars
  have hfirst : readBlank (before ++ (value.chars ++ (after ++ rest))) =
      (before, value.chars ++ (after ++ rest)) :=
    readBlank_append hbefore (by rw [hchars]; exact stops_cons.mpr hc)
  have hlast : readBlank (after ++ rest) = (after, rest) := readBlank_append hafter hrest
  simp only [itemChars, List.append_assoc, readItem, hfirst, hread, hlast, bind, Option.bind, pure]

/-- What follows a value in an array or an object does not go on with a number. -/
theorem stops_after {after : Blank} {rest : List Char} (hafter : IsBlank after)
    (hrest : Stops continuesNumber rest) : Stops continuesNumber (after ++ rest) := by
  cases after with
  | nil => exact hrest
  | cons c after =>
      exact stops_cons.mpr (continuesNumber_of_isBlank (hafter c List.mem_cons_self))

theorem stops_cons_of_item {c : Char} (cs : List Char) (hc : c = ',' ∨ c = ']' ∨ c = '\x7d') :
    Stops isBlank (c :: cs) ∧ Stops continuesNumber (c :: cs) := by
  rcases hc with rfl | rfl | rfl <;> exact ⟨stops_cons.mpr rfl, stops_cons.mpr rfl⟩

/-- The bracket that opens an array with items is not followed by the one that closes it. -/
theorem readSource_array {fuel : Nat} {items : List Item} {rest : List Char} (hne : items ≠ [])
    (h : itemsWellFormed items)
    (hread : readItems fuel (itemsChars items ++ rest) = some (items, rest)) :
    readSource (fuel + 1) ('[' :: (itemsChars items ++ rest)) = some (.array items, rest) := by
  obtain ⟨item, items, rfl⟩ := List.exists_cons_of_ne_nil hne
  obtain ⟨before, value, after⟩ := item
  obtain ⟨⟨hbefore, hvalue, -⟩, -⟩ := h
  obtain ⟨c, cs, hchars, hc, hclose, -⟩ := hvalue.exists_chars
  obtain ⟨tail, htail⟩ : ∃ tail, itemsChars (.mk before value after :: items) ++ rest =
      before ++ c :: tail := by
    cases items with
    | nil => exact ⟨_, by simp only [itemsChars, itemChars, hchars, List.append_assoc]; rfl⟩
    | cons item items =>
        exact ⟨_, by simp only [itemsChars, itemChars, hchars, List.append_assoc]; rfl⟩
  have hblank : readBlank (itemsChars (.mk before value after :: items) ++ rest) =
      (before, c :: tail) := by
    rw [htail]
    exact readBlank_append hbefore (stops_cons.mpr hc)
  simp [readSource, hblank, hclose, hread]

/-- The brace that opens an object with members is followed by a name. -/
theorem readSource_object {fuel : Nat} {entries : List Entry} {rest : List Char}
    (hne : entries ≠ []) (h : entriesWellFormed entries)
    (hread : readEntries fuel (entriesChars entries ++ rest) = some (entries, rest)) :
    readSource (fuel + 1) ('\x7b' :: (entriesChars entries ++ rest)) =
      some (.object entries, rest) := by
  obtain ⟨entry, entries, rfl⟩ := List.exists_cons_of_ne_nil hne
  obtain ⟨before, name, after, item⟩ := entry
  obtain ⟨⟨hbefore, -⟩, -⟩ := h
  obtain ⟨tail, htail⟩ : ∃ tail, entriesChars (.mk before name after item :: entries) ++ rest =
      before ++ '"' :: tail := by
    cases entries with
    | nil => exact ⟨_, by simp only [entriesChars, entryChars, quoted, List.append_assoc]; rfl⟩
    | cons entry entries =>
        exact ⟨_, by simp only [entriesChars, entryChars, quoted, List.append_assoc]; rfl⟩
  have hblank : readBlank (entriesChars (.mk before name after item :: entries) ++ rest) =
      (before, '"' :: tail) := by
    rw [htail]
    exact readBlank_append hbefore (stops_cons.mpr rfl)
  simp [readSource, hblank, hread]

/-- What becomes of the first member of an object by what follows it. -/
def entriesAfter (fuel : Nat) (entry : Entry) : List Char → Option (List Entry × List Char)
  | '\x7d' :: tail => some ([entry], tail)
  | ',' :: tail => (readEntries fuel tail).map fun (entries, tail) => (entry :: entries, tail)
  | _ => none

/-- A name is read with the blanks around it, and its value after the colon. -/
theorem readEntries_entryChars {fuel : Nat} {before after : Blank} {name : List Piece}
    {item : Item} {rest : List Char} (h : (Entry.mk before name after item).WellFormed)
    (hread : readItem fuel (itemChars item ++ rest) = some (item, rest)) :
    readEntries (fuel + 1) (entryChars (.mk before name after item) ++ rest) =
      entriesAfter fuel (.mk before name after item) rest := by
  obtain ⟨hbefore, hname, hafter, -⟩ := h
  have hfirst : ∀ cs, readBlank (before ++ '"' :: cs) = (before, '"' :: cs) :=
    fun cs => readBlank_append hbefore (stops_cons.mpr rfl)
  have hbody := readBody_append name hname (after ++ ':' :: (itemChars item ++ rest))
  have hlast : readBlank (after ++ ':' :: (itemChars item ++ rest)) =
      (after, ':' :: (itemChars item ++ rest)) := readBlank_append hafter (stops_cons.mpr rfl)
  have hchars : entryChars (.mk before name after item) ++ rest =
      before ++ '"' :: (name.flatMap Piece.chars ++
        '"' :: (after ++ ':' :: (itemChars item ++ rest))) := by
    simp [entryChars, quoted]
  rw [hchars]
  simp only [readEntries, hfirst, hbody, hlast, hread, bind, Option.bind, pure]
  split
  · rfl
  · next tail =>
      simp only [entriesAfter]
      cases readEntries fuel tail <;> rfl
  · next hclose hcomma => simp [entriesAfter]

-- Every bracket and every comma is a character of its own. It pays for the two steps of the fuel
-- that the reader takes with it.

mutual

/-- A well-formed source is read from its characters and what follows them. -/
theorem readSource_chars : (s : Source) → s.WellFormed → ∀ (fuel : Nat) (rest : List Char),
    2 * s.chars.length ≤ fuel → Stops continuesNumber rest →
      readSource fuel (s.chars ++ rest) = some (s, rest)
  | .null, h, fuel, rest, hfuel, _ => by
      obtain ⟨fuel, rfl⟩ := h.exists_fuel hfuel
      rfl
  | .bool b, h, fuel, rest, hfuel, _ => by
      obtain ⟨fuel, rfl⟩ := h.exists_fuel hfuel
      cases b <;> rfl
  | .number n, h, fuel, rest, hfuel, hrest => by
      obtain ⟨fuel, rfl⟩ := h.exists_fuel hfuel
      obtain ⟨c, cs, hchars, hc⟩ := Numeral.WellFormed.exists_chars h
      have hread := readNumeral_append h hrest
      show readSource (fuel + 1) (n.chars ++ rest) = _
      rw [hchars, List.cons_append] at hread ⊢
      rw [readSource_number hc, hread]
      rfl
  | .string body, h, fuel, rest, hfuel, _ => by
      obtain ⟨fuel, rfl⟩ := h.exists_fuel hfuel
      have hchars : (Source.string body).chars ++ rest =
          '"' :: (body.flatMap Piece.chars ++ '"' :: rest) := by
        simp [Source.chars, quoted]
      rw [hchars]
      simp [readSource, readBody_append body h rest]
  | .emptyArray inner, h, fuel, rest, hfuel, _ => by
      obtain ⟨fuel, rfl⟩ := h.exists_fuel hfuel
      have hchars : (Source.emptyArray inner).chars ++ rest = '[' :: (inner ++ ']' :: rest) := by
        simp [Source.chars]
      have hblank : readBlank (inner ++ ']' :: rest) = (inner, ']' :: rest) :=
        readBlank_append h (stops_cons.mpr rfl)
      rw [hchars]
      simp [readSource, hblank]
  | .array items, h, fuel, rest, hfuel, _ => by
      obtain ⟨fuel, rfl⟩ := h.exists_fuel hfuel
      refine readSource_array h.1 h.2 (readItems_chars items h.1 h.2 fuel rest ?_)
      simp only [Source.chars, List.length_cons] at hfuel
      omega
  | .emptyObject inner, h, fuel, rest, hfuel, _ => by
      obtain ⟨fuel, rfl⟩ := h.exists_fuel hfuel
      have hchars : (Source.emptyObject inner).chars ++ rest =
          '\x7b' :: (inner ++ '\x7d' :: rest) := by
        simp [Source.chars]
      have hblank : readBlank (inner ++ '\x7d' :: rest) = (inner, '\x7d' :: rest) :=
        readBlank_append h (stops_cons.mpr rfl)
      rw [hchars]
      simp [readSource, hblank]
  | .object members, h, fuel, rest, hfuel, _ => by
      obtain ⟨fuel, rfl⟩ := h.exists_fuel hfuel
      refine readSource_object h.1 h.2 (readEntries_chars members h.1 h.2 fuel rest ?_)
      simp only [Source.chars, List.length_cons] at hfuel
      omega
termination_by structural s => s

theorem readItem_chars : (item : Item) → item.WellFormed → ∀ (fuel : Nat) (rest : List Char),
    2 * (itemChars item).length + 1 ≤ fuel → Stops isBlank rest → Stops continuesNumber rest →
      readItem fuel (itemChars item ++ rest) = some (item, rest)
  | .mk before value after, h, fuel, rest, hfuel, hblank, hrest => by
      obtain ⟨fuel, rfl⟩ : ∃ k, fuel = k + 1 := ⟨fuel - 1, by omega⟩
      refine readItem_append h hblank (readSource_chars value h.2.1 fuel _ ?_
        (stops_after h.2.2 hrest))
      simp only [itemChars, List.length_append] at hfuel
      omega
termination_by structural item => item

theorem readItems_chars : (items : List Item) → items ≠ [] → itemsWellFormed items →
    ∀ (fuel : Nat) (rest : List Char), 2 * (itemsChars items).length ≤ fuel →
      readItems fuel (itemsChars items ++ rest) = some (items, rest)
  | [], hne, _, _, _, _ => absurd rfl hne
  | [item], _, h, fuel, rest, hfuel => by
      simp only [itemsChars, List.length_append, List.length_singleton] at hfuel
      obtain ⟨fuel, rfl⟩ : ∃ k, fuel = k + 1 := ⟨fuel - 1, by omega⟩
      obtain ⟨hblank, hstop⟩ := stops_cons_of_item rest (Or.inr (Or.inl rfl))
      have hread := readItem_chars item h.1 fuel (']' :: rest) (by omega) hblank hstop
      have hchars : itemsChars [item] ++ rest = itemChars item ++ ']' :: rest := by
        simp [itemsChars]
      rw [hchars]
      simp [readItems, hread]
  | item :: next :: items, _, h, fuel, rest, hfuel => by
      simp only [itemsChars, List.length_append, List.length_cons] at hfuel
      obtain ⟨fuel, rfl⟩ : ∃ k, fuel = k + 1 := ⟨fuel - 1, by omega⟩
      obtain ⟨hblank, hstop⟩ := stops_cons_of_item (itemsChars (next :: items) ++ rest)
        (Or.inl rfl)
      have hread := readItem_chars item h.1 fuel (',' :: (itemsChars (next :: items) ++ rest))
        (by omega) hblank hstop
      have hitems := readItems_chars (next :: items) (List.cons_ne_nil _ _) h.2 fuel rest (by omega)
      have hchars : itemsChars (item :: next :: items) ++ rest =
          itemChars item ++ ',' :: (itemsChars (next :: items) ++ rest) := by
        simp [itemsChars]
      rw [hchars]
      simp [readItems, hread, hitems]
termination_by structural items => items

theorem readEntries_chars : (entries : List Entry) → entries ≠ [] → entriesWellFormed entries →
    ∀ (fuel : Nat) (rest : List Char), 2 * (entriesChars entries).length ≤ fuel →
      readEntries fuel (entriesChars entries ++ rest) = some (entries, rest)
  | [], hne, _, _, _, _ => absurd rfl hne
  | [.mk before name after item], _, h, fuel, rest, hfuel => by
      simp only [entriesChars, entryChars, List.length_append, List.length_cons,
        List.length_nil] at hfuel
      obtain ⟨fuel, rfl⟩ : ∃ k, fuel = k + 1 := ⟨fuel - 1, by omega⟩
      obtain ⟨hblank, hstop⟩ := stops_cons_of_item rest (Or.inr (Or.inr rfl))
      have hread := readItem_chars item h.1.2.2.2 fuel ('\x7d' :: rest) (by omega) hblank hstop
      have hchars : entriesChars [.mk before name after item] ++ rest =
          entryChars (.mk before name after item) ++ '\x7d' :: rest := by
        simp [entriesChars]
      rw [hchars, readEntries_entryChars h.1 hread]
      rfl
  | .mk before name after item :: next :: entries, _, h, fuel, rest, hfuel => by
      simp only [entriesChars, entryChars, List.length_append, List.length_cons] at hfuel
      obtain ⟨fuel, rfl⟩ : ∃ k, fuel = k + 1 := ⟨fuel - 1, by omega⟩
      obtain ⟨hblank, hstop⟩ := stops_cons_of_item (entriesChars (next :: entries) ++ rest)
        (Or.inl rfl)
      have hread := readItem_chars item h.1.2.2.2 fuel
        (',' :: (entriesChars (next :: entries) ++ rest)) (by omega) hblank hstop
      have hentries := readEntries_chars (next :: entries) (List.cons_ne_nil _ _) h.2 fuel rest
        (by omega)
      have hchars : entriesChars (.mk before name after item :: next :: entries) ++ rest =
          entryChars (.mk before name after item) ++
            ',' :: (entriesChars (next :: entries) ++ rest) := by
        simp [entriesChars]
      rw [hchars, readEntries_entryChars h.1 hread, entriesAfter, hentries]
      rfl
termination_by structural entries => entries

end

/-- A text is read as the value that stands in it, without the blanks around it. -/
theorem Source.read?_itemChars {item : Item} (h : item.WellFormed) :
    Source.read? (String.ofList (itemChars item)) = some item.value := by
  have hread := readItem_chars item h (3 * (itemChars item).length + 3) [] (by omega)
    (stops_nil _) (stops_nil _)
  rw [List.append_nil] at hread
  simp [Source.read?, hread]

/-- The text of a source is read as that source. -/
theorem Source.read?_text {s : Source} (h : s.WellFormed) : Source.read? s.text = some s := by
  have hblank : IsBlank [] := fun _ hc => nomatch hc
  have hread := read?_itemChars (show (Item.mk [] s []).WellFormed from ⟨hblank, h, hblank⟩)
  have hchars : itemChars (.mk [] s []) = s.chars := by simp [itemChars]
  rw [hchars] at hread
  exact hread

end IstanbulMonitor.Json
