import IstanbulMonitor.Json.Render
import IstanbulMonitor.Proofs.Json.Reading

/-!
# A value is read back from its text

`sourceOf` is the source that a value is written as. It has the characters of the value
(`chars_sourceOf`), it is spelled as the grammar has it (`wellFormed_sourceOf`), and it denotes the
value (`value?_sourceOf`), provided that the value `Fits`: its numbers are integers of 64 bits, the
names in its objects ascend, and it is nested no deeper than the reader goes. So such a value is
what its text is read as (`parse?_render`).
-/

set_option autoImplicit false

namespace IstanbulMonitor.Json

/-! ## Strings -/

/-- The piece that a character is written as. -/
def pieceOf (c : Char) : Piece :=
  if c = '"' then .short '"'
  else if c = '\\' then .short '\\'
  else if c = '\x08' then .short 'b'
  else if c = '\t' then .short 't'
  else if c = '\n' then .short 'n'
  else if c = '\x0c' then .short 'f'
  else if c = '\r' then .short 'r'
  else if c.toNat < 32 then .unit '0' '0' (Hex.digit (c.toNat / 16)) (Hex.digit (c.toNat % 16))
  else .plain c

/-- A character is written as an escape of one letter, as one of four digits if it is another
control character, or as it is. -/
theorem pieceOf_cases (c : Char) :
    (∃ letter, unescape? letter = some c ∧ pieceOf c = .short letter ∧
      escape c = ['\\', letter]) ∨
    (c.toNat < 32 ∧
      pieceOf c = .unit '0' '0' (Hex.digit (c.toNat / 16)) (Hex.digit (c.toNat % 16)) ∧
      escape c = ['\\', 'u', '0', '0', Hex.digit (c.toNat / 16), Hex.digit (c.toNat % 16)]) ∨
    (c ≠ '"' ∧ c ≠ '\\' ∧ 32 ≤ c.toNat ∧ pieceOf c = .plain c ∧ escape c = [c]) := by
  by_cases hquote : c = '"'
  · subst hquote
    exact Or.inl ⟨_, rfl, rfl, rfl⟩
  by_cases hslash : c = '\\'
  · subst hslash
    exact Or.inl ⟨_, rfl, rfl, rfl⟩
  by_cases hb : c = '\x08'
  · subst hb
    exact Or.inl ⟨_, rfl, rfl, rfl⟩
  by_cases ht : c = '\t'
  · subst ht
    exact Or.inl ⟨_, rfl, rfl, rfl⟩
  by_cases hn : c = '\n'
  · subst hn
    exact Or.inl ⟨_, rfl, rfl, rfl⟩
  by_cases hf : c = '\x0c'
  · subst hf
    exact Or.inl ⟨_, rfl, rfl, rfl⟩
  by_cases hr : c = '\r'
  · subst hr
    exact Or.inl ⟨_, rfl, rfl, rfl⟩
  by_cases hcontrol : c.toNat < 32
  · refine Or.inr (Or.inl ⟨hcontrol, ?_, ?_⟩)
    · simp only [pieceOf, hquote, hslash, hb, ht, hn, hf, hr, hcontrol, if_true, if_false]
    · simp only [escape, hquote, hslash, hb, ht, hn, hf, hr, hcontrol, if_true, if_false]
  · refine Or.inr (Or.inr ⟨hquote, hslash, Nat.not_lt.mp hcontrol, ?_, ?_⟩)
    · simp only [pieceOf, hquote, hslash, hb, ht, hn, hf, hr, hcontrol, if_false]
    · simp only [escape, hquote, hslash, hb, ht, hn, hf, hr, hcontrol, if_false]

theorem chars_pieceOf (c : Char) : (pieceOf c).chars = escape c := by
  rcases pieceOf_cases c with ⟨letter, -, hpiece, hescape⟩ | ⟨-, hpiece, hescape⟩ |
    ⟨-, -, -, hpiece, hescape⟩ <;> rw [hpiece, hescape] <;> rfl

theorem isHexDigit_digit {n : Nat} (h : n < 16) : isHexDigit (Hex.digit n) = true := by
  rw [isHexDigit, Hex.value?_digit n h]
  rfl

theorem wellFormed_pieceOf (c : Char) : (pieceOf c).WellFormed := by
  rcases pieceOf_cases c with ⟨letter, hletter, hpiece, -⟩ | ⟨hlt, hpiece, -⟩ |
    ⟨hquote, hslash, hle, hpiece, -⟩
  · rw [hpiece]
    exact Option.isSome_of_eq_some hletter
  · rw [hpiece]
    exact ⟨rfl, rfl, isHexDigit_digit (by omega), isHexDigit_digit (by omega)⟩
  · rw [hpiece]
    exact ⟨hquote, hslash, hle⟩

/-- The unit of an escape of four digits. -/
theorem exists_unit? {a b c d : Char} (h : (Piece.unit a b c d).WellFormed) :
    ∃ u, unit? a b c d = some u := by
  obtain ⟨ha, hb, hc, hd⟩ := h
  obtain ⟨a', ha⟩ := Option.isSome_iff_exists.mp ha
  obtain ⟨b', hb⟩ := Option.isSome_iff_exists.mp hb
  obtain ⟨c', hc⟩ := Option.isSome_iff_exists.mp hc
  obtain ⟨d', hd⟩ := Option.isSome_iff_exists.mp hd
  exact ⟨_, by simp only [unit?, ha, hb, hc, hd, Option.bind_eq_bind, Option.bind_some, pure]; rfl⟩

/-- A unit that is no half of a character stands for a character of its own. -/
theorem decodeBody_unit {a b c d : Char} {u : Nat} (hu : unit? a b c d = some u)
    (hlow : u < 0xd800) {body : List Piece} (h : ∀ p ∈ body, p.WellFormed) :
    decodeBody (.unit a b c d :: body) = (decodeBody body).map (Char.ofNat u :: ·) := by
  have hupper : ¬ (0xd800 ≤ u ∧ u < 0xdc00) := by omega
  have hlower : ¬ (0xdc00 ≤ u ∧ u < 0xe000) := by omega
  have hhalf : ¬ (0xd800 ≤ u ∧ u < 0xe000) := by omega
  cases body with
  | nil => simp [decodeBody, hu, hhalf]
  | cons p rest =>
      cases p with
      | unit e f g i =>
          -- the unit after it is read as well
          obtain ⟨v, hv⟩ := exists_unit? (h _ List.mem_cons_self)
          simp only [decodeBody, hu, hv, hupper, hlower, if_false, Option.bind_eq_bind,
            Option.bind_some, Option.map_eq_bind, Function.comp_def, pure]
      | short letter =>
          simp only [decodeBody, hu, hhalf, if_false, Option.bind_eq_bind, Option.bind_some,
            Option.map_eq_bind, Function.comp_def, pure]
      | plain c =>
          simp only [decodeBody, hu, hhalf, if_false, Option.bind_eq_bind, Option.bind_some,
            Option.map_eq_bind, Function.comp_def, pure]

/-- A string is what its pieces denote. -/
theorem decodeBody_map_pieceOf (cs : List Char) : decodeBody (cs.map pieceOf) = some cs := by
  induction cs with
  | nil => rfl
  | cons c cs ih =>
      rw [List.map_cons]
      rcases pieceOf_cases c with ⟨letter, hletter, hpiece, -⟩ | ⟨hlt, hpiece, -⟩ |
        ⟨-, -, -, hpiece, -⟩
      · simp [hpiece, decodeBody, hletter, ih]
      · have hunit : unit? '0' '0' (Hex.digit (c.toNat / 16)) (Hex.digit (c.toNat % 16)) =
            some c.toNat := by
          have hzero : Hex.value? '0' = some 0 := rfl
          have hhigh := Hex.value?_digit (c.toNat / 16) (by omega)
          have hlow := Hex.value?_digit (c.toNat % 16) (by omega)
          simp only [unit?, hzero, hhigh, hlow, Option.bind_eq_bind, Option.bind_some, pure,
            Option.some.injEq]
          omega
        rw [hpiece, decodeBody_unit hunit (by omega) ?_, ih]
        · simp
        · intro p hp
          obtain ⟨d, -, rfl⟩ := List.mem_map.mp hp
          exact wellFormed_pieceOf d
      · simp [hpiece, decodeBody, ih]

/-! ## Numbers -/

/-- The spelling of a number. A double is spelled as its text is read. -/
def Number.numeral : Number → Numeral
  | .int n => ⟨n < 0, Nat.toDigits 10 n.natAbs, none, none⟩
  | .float x => ((readNumeral x.text.toList).map (·.1)).getD ⟨false, ['0'], none, none⟩

theorem isDigits_toDigits (m : Nat) : IsDigits (Nat.toDigits 10 m) :=
  ⟨Nat.toDigits_ne_nil, fun _ hc => Nat.isDigit_of_mem_toDigits (by decide) (by decide) hc⟩

/-- No leading zero is written. -/
theorem isWhole_toDigits (m : Nat) : IsWhole (Nat.toDigits 10 m) := by
  rcases Nat.eq_zero_or_pos m with rfl | hpos
  · exact Or.inl rfl
  · refine Or.inr ⟨isDigits_toDigits m, ?_⟩
    induction m using Nat.strongRecOn with
    | ind m ih =>
        by_cases hlt : m < 10
        · have hall : ∀ d, d < 10 → 0 < d → (Nat.toDigits 10 d).head? ≠ some '0' := by decide
          exact hall m hlt hpos
        · -- the first digit is that of the number without its last digit
          have hhead := ih (m / 10) (by omega) (by omega)
          obtain ⟨c, cs, hcs⟩ := List.exists_cons_of_ne_nil (isDigits_toDigits (m / 10)).1
          rw [hcs] at hhead
          rw [Nat.toDigits_of_base_le (by decide) (by omega), hcs]
          exact hhead

theorem takeDigits_concat {acc m : Nat} {digits : List Char} {c : Char}
    (h : takeDigits acc digits = (m, [])) (hlt : m * 10 + digitValue c < UInt64.size) :
    takeDigits acc (digits ++ [c]) = (m * 10 + digitValue c, []) := by
  induction digits generalizing acc with
  | nil =>
      cases h
      simp only [List.nil_append, takeDigits, hlt, if_true]
  | cons d digits ih =>
      rw [takeDigits] at h
      split at h
      · next hfits =>
          rw [List.cons_append, takeDigits, if_pos hfits]
          exact ih h
      · cases h

/-- All digits of a number of 64 bits have room in the significand. -/
theorem takeDigits_toDigits {m : Nat} (h : m < UInt64.size) :
    takeDigits 0 (Nat.toDigits 10 m) = (m, []) := by
  induction m using Nat.strongRecOn with
  | ind m ih =>
      have hvalue : ∀ d, d < 10 → digitValue d.digitChar = d := by decide
      by_cases hlt : m < 10
      · rw [Nat.toDigits_of_lt_base hlt]
        have hd := hvalue m hlt
        simp only [takeDigits, hd, Nat.zero_mul, Nat.zero_add, h, if_true]
      · -- the last digit is read after all the others
        have hrest := ih (m / 10) (by omega) (by omega)
        have hd := hvalue (m % 10) (by omega)
        have hm : m / 10 * 10 + m % 10 = m := by omega
        rw [Nat.toDigits_of_base_le (by decide) (by omega),
          takeDigits_concat hrest (by rw [hd, hm]; exact h), hd, hm]

/-- An integer of 64 bits, signed or not. -/
def IsWord (n : Int) : Prop := -0x8000000000000000 ≤ n ∧ n < 0x10000000000000000

theorem chars_numeral_int (n : Int) : (Number.int n).numeral.chars = integerChars n := by
  unfold integerChars
  by_cases hneg : n < 0
  · simp [Number.numeral, Numeral.chars, hneg]
  · simp [Number.numeral, Numeral.chars, hneg]

theorem wellFormed_numeral_int (n : Int) : (Number.int n).numeral.WellFormed where
  whole := isWhole_toDigits n.natAbs
  fraction _ h := nomatch h
  exponent _ _ _ h := nomatch h

theorem number?_numeral_int {n : Int} (h : IsWord n) :
    (Number.int n).numeral.number? = some (.int n) := by
  obtain ⟨hlow, hhigh⟩ := h
  have htake := takeDigits_toDigits (m := n.natAbs) (by
    show n.natAbs < 2 ^ 64
    omega)
  by_cases hneg : n < 0
  · have hsize : 0 < n.natAbs ∧ n.natAbs ≤ 0x8000000000000000 := by omega
    have habs : -(n.natAbs : Int) = n := by omega
    simp only [Number.numeral, Numeral.number?, htake, hneg, decide_true, Option.isNone_none,
      List.isEmpty_nil, Bool.and_self, Bool.not_true, Bool.false_eq_true, if_true, if_false, hsize,
      and_self, habs]
  · have habs : (n.natAbs : Int) = n := by omega
    simp only [Number.numeral, Numeral.number?, htake, hneg, decide_false, Option.isNone_none,
      List.isEmpty_nil, Bool.and_self, Bool.not_false, if_true, habs]

/-! ## Values -/

mutual

/-- A value that the reader takes: integers of 64 bits are its only numbers, the names in its
objects ascend, and it has at most `depth` levels of arrays and objects. -/
def Fits (depth : Nat) : Json → Prop
  | .null => True
  | .bool _ => True
  | .number (.int n) => IsWord n
  | .number (.float _) => False
  | .string _ => True
  | .array es => depth ≠ 0 ∧ elementsFit (depth - 1) es
  | .object ms =>
    depth ≠ 0 ∧ (ms.map Prod.fst).Pairwise (· < ·) ∧ membersFit (depth - 1) ms
termination_by structural v => v

/-- The elements of an array that do. -/
def elementsFit (depth : Nat) : List Json → Prop
  | [] => True
  | e :: es => Fits depth e ∧ elementsFit depth es
termination_by structural es => es

/-- The members of an object whose values do. -/
def membersFit (depth : Nat) : List (String × Json) → Prop
  | [] => True
  | m :: ms => memberFits depth m ∧ membersFit depth ms
termination_by structural ms => ms

/-- A member whose value does. -/
def memberFits (depth : Nat) : String × Json → Prop
  | (_, value) => Fits depth value
termination_by structural m => m

end

theorem elementsFit_iff {depth : Nat} {es : List Json} :
    elementsFit depth es ↔ ∀ e ∈ es, Fits depth e := by
  induction es with
  | nil => simp [elementsFit]
  | cons e es ih => simp [elementsFit, ih]

mutual

/-- A value that is nested less deep fits as well. -/
theorem Fits.mono {depth limit : Nat} : (v : Json) → depth ≤ limit → Fits depth v → Fits limit v
  | .null, _, _ => trivial
  | .bool _, _, _ => trivial
  | .number (.int _), _, h => h
  | .string _, _, _ => trivial
  | .array es, hle, h => ⟨by have := h.1; omega, elementsFit_mono es (by omega) h.2⟩
  | .object ms, hle, h => ⟨by have := h.1; omega, h.2.1, membersFit_mono ms (by omega) h.2.2⟩
termination_by structural v => v

theorem elementsFit_mono {depth limit : Nat} : (es : List Json) → depth ≤ limit →
    elementsFit depth es → elementsFit limit es
  | [], _, _ => trivial
  | e :: es, hle, h => ⟨Fits.mono e hle h.1, elementsFit_mono es hle h.2⟩
termination_by structural es => es

theorem membersFit_mono {depth limit : Nat} : (ms : List (String × Json)) → depth ≤ limit →
    membersFit depth ms → membersFit limit ms
  | [], _, _ => trivial
  | m :: ms, hle, h => ⟨memberFits_mono m hle h.1, membersFit_mono ms hle h.2⟩
termination_by structural ms => ms

theorem memberFits_mono {depth limit : Nat} : (m : String × Json) → depth ≤ limit →
    memberFits depth m → memberFits limit m
  | (_, value), hle, h => Fits.mono value hle h
termination_by structural m => m

end

mutual

/-- The source that a value is written as. -/
def sourceOf : Json → Source
  | .null => .null
  | .bool b => .bool b
  | .number n => .number n.numeral
  | .string s => .string (s.toList.map pieceOf)
  | .array [] => .emptyArray []
  | .array (e :: es) => .array (.mk [] (sourceOf e) [] :: itemsOf es)
  | .object [] => .emptyObject []
  | .object (m :: ms) => .object (entryOf m :: entriesOf ms)
termination_by structural v => v

/-- The items that elements are written as. -/
def itemsOf : List Json → List Item
  | [] => []
  | e :: es => .mk [] (sourceOf e) [] :: itemsOf es
termination_by structural es => es

/-- The entries that members are written as. -/
def entriesOf : List (String × Json) → List Entry
  | [] => []
  | m :: ms => entryOf m :: entriesOf ms
termination_by structural ms => ms

/-- The entry that a member is written as. -/
def entryOf : String × Json → Entry
  | (name, value) => .mk [] (name.toList.map pieceOf) [] (.mk [] (sourceOf value) [])
termination_by structural m => m

end

theorem quoted_map_pieceOf (s : String) : quoted (s.toList.map pieceOf) = quote s := by
  have hchars : (s.toList.map pieceOf).flatMap Piece.chars = s.toList.flatMap escape := by
    rw [List.flatMap_map]
    exact congrArg (List.flatMap · s.toList) (funext chars_pieceOf)
  rw [quoted, quote, hchars]

theorem wellFormed_map_pieceOf (cs : List Char) : ∀ p ∈ cs.map pieceOf, p.WellFormed := by
  intro p hp
  obtain ⟨c, -, rfl⟩ := List.mem_map.mp hp
  exact wellFormed_pieceOf c

theorem isBlank_nil : IsBlank [] := fun _ hc => nomatch hc

mutual

/-- A value is written with the characters of its source. -/
theorem chars_sourceOf {depth : Nat} : (v : Json) → Fits depth v → (sourceOf v).chars = v.chars
  | .null, _ => rfl
  | .bool true, _ => rfl
  | .bool false, _ => rfl
  | .number (.int n), _ => chars_numeral_int n
  | .string s, _ => quoted_map_pieceOf s
  | .array [], _ => rfl
  | .array (e :: es), h => by
      simp only [sourceOf, Source.chars, chars, itemsChars_itemsOf es h.2.2, itemChars,
        chars_sourceOf e h.2.1, List.nil_append, List.append_nil, List.cons_append]
  | .object [], _ => rfl
  | .object (m :: ms), h => by
      simp only [sourceOf, Source.chars, chars, entriesChars_entriesOf ms h.2.2.2,
        entryChars_entryOf m h.2.2.1, List.cons_append]
termination_by structural v => v

theorem itemsChars_itemsOf {depth : Nat} : (es : List Json) → elementsFit depth es →
    ∀ item : Item, itemsChars (item :: itemsOf es) = itemChars item ++ tailChars es
  | [], _, _ => rfl
  | e :: es, h, item => by
      have hes := itemsChars_itemsOf es h.2 (.mk [] (sourceOf e) [])
      simp only [itemsOf, itemsChars, hes, itemChars, chars_sourceOf e h.1, tailChars,
        List.nil_append, List.append_nil, List.cons_append]
termination_by structural es => es

theorem entriesChars_entriesOf {depth : Nat} : (ms : List (String × Json)) →
    membersFit depth ms →
      ∀ entry : Entry, entriesChars (entry :: entriesOf ms) = entryChars entry ++ membersChars ms
  | [], _, _ => rfl
  | m :: ms, h, entry => by
      have hms := entriesChars_entriesOf ms h.2 (entryOf m)
      simp only [entriesOf, entriesChars, hms, entryChars_entryOf m h.1, membersChars,
        List.cons_append]
termination_by structural ms => ms

theorem entryChars_entryOf {depth : Nat} : (m : String × Json) → memberFits depth m →
    entryChars (entryOf m) = memberChars m
  | (name, value), h => by
      have hvalue := chars_sourceOf value h
      simp only [entryOf, entryChars, quoted_map_pieceOf, itemChars, hvalue, memberChars,
        List.nil_append, List.append_nil]
termination_by structural m => m

end

mutual

/-- The source of a value is spelled as the grammar has it. -/
theorem wellFormed_sourceOf {depth : Nat} : (v : Json) → Fits depth v → (sourceOf v).WellFormed
  | .null, _ => trivial
  | .bool _, _ => trivial
  | .number (.int n), _ => wellFormed_numeral_int n
  | .string s, _ => wellFormed_map_pieceOf s.toList
  | .array [], _ => isBlank_nil
  | .array (e :: es), h =>
      ⟨List.cons_ne_nil _ _, ⟨isBlank_nil, wellFormed_sourceOf e h.2.1, isBlank_nil⟩,
        wellFormed_itemsOf es h.2.2⟩
  | .object [], _ => isBlank_nil
  | .object (m :: ms), h =>
      ⟨List.cons_ne_nil _ _, wellFormed_entryOf m h.2.2.1, wellFormed_entriesOf ms h.2.2.2⟩
termination_by structural v => v

theorem wellFormed_itemsOf {depth : Nat} : (es : List Json) → elementsFit depth es →
    itemsWellFormed (itemsOf es)
  | [], _ => trivial
  | e :: es, h =>
      ⟨⟨isBlank_nil, wellFormed_sourceOf e h.1, isBlank_nil⟩, wellFormed_itemsOf es h.2⟩
termination_by structural es => es

theorem wellFormed_entriesOf {depth : Nat} : (ms : List (String × Json)) → membersFit depth ms →
    entriesWellFormed (entriesOf ms)
  | [], _ => trivial
  | m :: ms, h => ⟨wellFormed_entryOf m h.1, wellFormed_entriesOf ms h.2⟩
termination_by structural ms => ms

theorem wellFormed_entryOf {depth : Nat} : (m : String × Json) → memberFits depth m →
    (entryOf m).WellFormed
  | (name, value), h =>
      ⟨isBlank_nil, wellFormed_map_pieceOf name.toList, isBlank_nil, isBlank_nil,
        wellFormed_sourceOf value h, isBlank_nil⟩
termination_by structural m => m

end

/-! ## The order of members -/

theorem perm_insert {name : String} (value : Json) {ms : List (String × Json)}
    (fresh : ∀ m ∈ ms, name ≠ m.1) : (insert name value ms).Perm ((name, value) :: ms) := by
  induction ms with
  | nil => exact .refl _
  | cons m ms ih =>
      have hrest := ih fun m' hm' => fresh m' (List.mem_cons_of_mem m hm')
      rw [insert, if_neg (fresh m List.mem_cons_self)]
      split
      · exact .refl _
      · exact (hrest.cons m).trans (.swap _ _ _)

/-- A member goes where its name belongs. -/
theorem pairwise_insert {name : String} (value : Json) {ms : List (String × Json)}
    (fresh : ∀ m ∈ ms, name ≠ m.1) (ascending : ms.Pairwise (·.1 < ·.1)) :
    (insert name value ms).Pairwise (·.1 < ·.1) := by
  induction ms with
  | nil => exact List.pairwise_singleton _ _
  | cons m ms ih =>
      obtain ⟨hm, hms⟩ := List.pairwise_cons.mp ascending
      have hne := fresh m List.mem_cons_self
      have hrest : ∀ m' ∈ ms, name ≠ m'.1 := fun m' hm' => fresh m' (List.mem_cons_of_mem m hm')
      rw [insert, if_neg hne]
      split
      · next hlt =>
          refine List.pairwise_cons.mpr ⟨?_, ascending⟩
          intro m' hm'
          rcases List.mem_cons.mp hm' with rfl | hm'
          · exact hlt
          · exact String.lt_trans hlt (hm m' hm')
      · next hge =>
          have hlt : m.1 < name := Std.lt_of_le_of_ne (String.not_lt.mp hge) hne.symm
          refine List.pairwise_cons.mpr ⟨?_, ih hrest hms⟩
          intro m' hm'
          rcases List.mem_cons.mp ((perm_insert value hrest).mem_iff.mp hm') with rfl | hm'
          · exact hlt
          · exact hm m' hm'

theorem nodup_of_ascending {ms : List (String × Json)}
    (h : (ms.map Prod.fst).Pairwise (· < ·)) : (ms.map Prod.fst).Nodup := by
  refine h.imp ?_
  rintro a b hlt rfl
  exact String.lt_irrefl a hlt

/-- Members with distinct names that are put in one by one stand in the order of their names. -/
theorem foldl_insert (after before : List (String × Json))
    (distinct : ((before ++ after).map Prod.fst).Nodup) (ascending : before.Pairwise (·.1 < ·.1)) :
    (after.foldl (fun acc m => insert m.1 m.2 acc) before).Pairwise (·.1 < ·.1) ∧
      (after.foldl (fun acc m => insert m.1 m.2 acc) before).Perm (before ++ after) := by
  induction after generalizing before with
  | nil =>
      rw [List.append_nil]
      exact ⟨ascending, .refl before⟩
  | cons m after ih =>
      -- at every moment the members in order and those still to come are the given ones
      have hmiddle : (before ++ m :: after).Perm (m :: before ++ after) := List.perm_middle
      have hdistinct := (hmiddle.map Prod.fst).nodup_iff.mp distinct
      have fresh : ∀ m' ∈ before, m.1 ≠ m'.1 := by
        intro m' mem heq
        apply (List.nodup_cons.mp hdistinct).1
        rw [heq]
        exact List.mem_map_of_mem (List.mem_append_left after mem)
      have hinsert : (insert m.1 m.2 before ++ after).Perm (m :: before ++ after) :=
        (perm_insert m.2 fresh).append_right after
      have hnext := (hinsert.map Prod.fst).nodup_iff.mpr hdistinct
      obtain ⟨hsorted, hperm⟩ := ih _ hnext (pairwise_insert m.2 fresh ascending)
      exact ⟨hsorted, hperm.trans (hinsert.trans hmiddle.symm)⟩

/-- An object of members with distinct names has all of them. -/
theorem perm_members_ofMembers {ms : List (String × Json)} (distinct : (ms.map Prod.fst).Nodup) :
    (ofMembers ms).members.Perm ms :=
  (foldl_insert ms [] distinct .nil).2

/-- In whatever order the members of an object are given, they stand in the order of their names. -/
theorem ofMembers_of_perm {given ms : List (String × Json)} (perm : given.Perm ms)
    (ascending : (ms.map Prod.fst).Pairwise (· < ·)) : ofMembers given = .object ms := by
  have hms : ms.Pairwise (·.1 < ·.1) := List.pairwise_map.mp ascending
  have hdistinct := (perm.map Prod.fst).nodup_iff.mpr (nodup_of_ascending ascending)
  obtain ⟨hsorted, hperm⟩ := foldl_insert given [] hdistinct .nil
  refine congrArg Json.object ((hperm.trans perm).eq_of_pairwise ?_ hsorted hms)
  intro a b _ _ hab hba
  exact absurd hab (String.lt_asymm hba)

/-! ## The value of a source -/

mutual

/-- The source of a value denotes the value. -/
theorem value?_sourceOf {depth : Nat} : (v : Json) → Fits depth v →
    (sourceOf v).value? depth = some v
  | .null, _ => rfl
  | .bool _, _ => rfl
  | .number (.int n), h => by
      simp only [sourceOf, Source.value?, number?_numeral_int h, Option.map_some]
  | .string s, _ => by
      simp only [sourceOf, Source.value?, decodeBody_map_pieceOf, Option.map_some,
        String.ofList_toList]
  | .array [], h => by
      simp only [sourceOf, Source.value?, h.1, if_false]
  | .array (e :: es), h => by
      simp only [sourceOf, Source.value?, h.1, if_false, itemsValues?, itemValue?,
        value?_sourceOf e h.2.1, itemsValues?_itemsOf es h.2.2, Option.bind_eq_bind,
        Option.bind_some, pure, Option.map_some]
  | .object [], h => by
      simp only [sourceOf, Source.value?, h.1, if_false]
  | .object (m :: ms), h => by
      simp only [sourceOf, Source.value?, h.1, if_false, entriesValues?,
        entryValue?_entryOf m h.2.2.1, entriesValues?_entriesOf ms h.2.2.2, Option.bind_eq_bind,
        Option.bind_some, pure, Option.map_some, ofMembers_of_perm (.refl _) h.2.1]
termination_by structural v => v

theorem itemsValues?_itemsOf {depth : Nat} : (es : List Json) → elementsFit depth es →
    itemsValues? depth (itemsOf es) = some es
  | [], _ => rfl
  | e :: es, h => by
      simp only [itemsOf, itemsValues?, itemValue?, value?_sourceOf e h.1,
        itemsValues?_itemsOf es h.2, Option.bind_eq_bind, Option.bind_some, pure]
termination_by structural es => es

theorem entriesValues?_entriesOf {depth : Nat} : (ms : List (String × Json)) →
    membersFit depth ms → entriesValues? depth (entriesOf ms) = some ms
  | [], _ => rfl
  | m :: ms, h => by
      simp only [entriesOf, entriesValues?, entryValue?_entryOf m h.1,
        entriesValues?_entriesOf ms h.2, Option.bind_eq_bind, Option.bind_some, pure]
termination_by structural ms => ms

theorem entryValue?_entryOf {depth : Nat} : (m : String × Json) → memberFits depth m →
    entryValue? depth (entryOf m) = some m
  | (name, value), h => by
      simp only [entryOf, entryValue?, decodeBody_map_pieceOf, itemValue?,
        value?_sourceOf value h, Option.bind_eq_bind, Option.bind_some, pure,
        String.ofList_toList]
termination_by structural m => m

end

/-! ## The text of a value -/

variable {depth : Nat} {v : Json}

theorem text_sourceOf (h : Fits depth v) : (sourceOf v).text = v.render := by
  rw [Source.text, chars_sourceOf v h, render]

/-- The text of a value is read as its source. -/
theorem read?_render (h : Fits depth v) : Source.read? v.render = some (sourceOf v) := by
  rw [← text_sourceOf h]
  exact Source.read?_text (wellFormed_sourceOf v h)

/-- The text of a value is read as the value. -/
theorem parse?_render (h : Fits maxDepth v) : parse? v.render = some v := by
  rw [parse?, read?_render h, Option.bind_some, value?_sourceOf v h]

end IstanbulMonitor.Json
