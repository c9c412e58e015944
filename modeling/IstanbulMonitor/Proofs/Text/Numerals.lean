import IstanbulMonitor.Proofs.Chain.Spellings

/-!
# Reading numerals

A numeral is a row of digits that denotes a number (`Radix.Numeral`). Digits are read from left to
right, and what comes first decides: they are read to the end if they are a numeral below the limit,
after a plus sign or none (`Radix.read_eq_ok_iff`), and they are out of range if they start with a
numeral that has reached the limit, whatever comes after it (`Radix.read_eq_overflow_iff`).
-/

set_option autoImplicit false

namespace IstanbulMonitor

namespace Radix

variable {radix limit acc n d : Nat} {c : Char} {cs sign digits : List Char}

/-! ## Numerals -/

/-- A numeral: at least one digit of a radix, the last of which counts once. -/
structure Numeral (radix n : Nat) (cs : List Char) : Prop where
  some_digit : cs ≠ []
  denotes : ∃ values : List Nat, cs.map (digit? radix) = values.map some ∧
    n = Nat.ofDigits radix values.reverse

/-- Digits after `acc` shift it by as many places. -/
theorem value?_eq_some_iff :
    value? radix acc cs = some n ↔ ∃ values : List Nat,
      cs.map (digit? radix) = values.map some ∧
        n = acc * radix ^ cs.length + Nat.ofDigits radix values.reverse := by
  induction cs generalizing acc with
  | nil =>
    have hmap : ∀ values : List Nat, ([] : List (Option Nat)) = values.map some ↔ values = [] :=
      fun values => eq_comm.trans List.map_eq_nil_iff
    simp only [value?, List.map_nil, hmap, exists_eq_left, List.reverse_nil, Nat.ofDigits_nil,
      List.length_nil, Nat.pow_zero, Nat.mul_one, Nat.add_zero, Option.some.injEq, eq_comm]
  | cons c cs ih =>
    -- the first digit counts as often as there are numbers of the digits that are left
    have hshift : ∀ (d : Nat) (values : List Nat), cs.map (digit? radix) = values.map some →
        acc * radix ^ (c :: cs).length + Nat.ofDigits radix (d :: values).reverse =
          (acc * radix + d) * radix ^ cs.length + Nat.ofDigits radix values.reverse := by
      intro d values hvalues
      have hlength : values.length = cs.length := by
        have h := congrArg List.length hvalues
        rw [List.length_map, List.length_map] at h
        exact h.symm
      rw [List.reverse_cons, Nat.ofDigits_append, List.length_reverse, Nat.ofDigits_singleton,
        hlength, List.length_cons]
      ring
    rw [value?_cons_eq_some]
    constructor
    · rintro ⟨d, hd, hrest⟩
      obtain ⟨values, hvalues, hn⟩ := ih.mp hrest
      refine ⟨d :: values, ?_, hn.trans (hshift d values hvalues).symm⟩
      rw [List.map_cons, hd, hvalues, List.map_cons]
    · rintro ⟨values, hvalues, hn⟩
      rw [List.map_cons] at hvalues
      obtain ⟨d, values, rfl, hd, hvalues⟩ := List.map_eq_cons_iff.mp hvalues.symm
      exact ⟨d, hd.symm, ih.mpr ⟨values, hvalues.symm, hn.trans (hshift d values hvalues.symm)⟩⟩

theorem numeral_iff : Numeral radix n cs ↔ cs ≠ [] ∧ value? radix 0 cs = some n := by
  have hvalue : value? radix 0 cs = some n ↔ ∃ values : List Nat,
      cs.map (digit? radix) = values.map some ∧ n = Nat.ofDigits radix values.reverse := by
    simpa only [Nat.zero_mul, Nat.zero_add] using @value?_eq_some_iff radix 0 n cs
  rw [hvalue]
  exact ⟨fun numeral => ⟨numeral.some_digit, numeral.denotes⟩, fun h => ⟨h.1, h.2⟩⟩

theorem Numeral.value?_eq (numeral : Numeral radix n cs) : value? radix 0 cs = some n :=
  (numeral_iff.mp numeral).2

/-- The digits of a number are a numeral. -/
theorem numeral_toDigits (low : 1 < radix) (high : radix ≤ 16) (n : Nat) :
    Numeral radix n (Nat.toDigits radix n) :=
  numeral_iff.mpr ⟨Nat.toDigits_ne_nil, value?_toDigits low high n⟩

/-- A numeral starts with a digit, and a plus sign is none. -/
theorem Numeral.exists_cons (numeral : Numeral radix n digits) :
    ∃ c rest, digits = c :: rest ∧ c ≠ '+' := by
  obtain ⟨c, rest, rfl⟩ := List.exists_cons_of_ne_nil numeral.some_digit
  have hplus : '+' ∉ c :: rest := not_mem_of_value? numeral.value?_eq rfl
  exact ⟨c, rest, rfl, fun hc => hplus (hc ▸ List.mem_cons_self)⟩

/-! ## Reading digits from left to right -/

/-- Digits are read to the end if they denote a number below the limit. -/
theorem accumulate_eq_ok_iff (pos : 0 < radix) (below : acc < limit) :
    accumulate radix limit acc cs = .ok n ↔ value? radix acc cs = some n ∧ n < limit := by
  refine ⟨fun hread => ?_, fun h => accumulate_eq_ok pos h.1 h.2⟩
  induction cs generalizing acc with
  | nil =>
    cases hread
    exact ⟨rfl, below⟩
  | cons c cs ih =>
    unfold accumulate at hread
    split at hread
    · cases hread
    · next d hd =>
      split at hread
      · next hlt =>
        obtain ⟨hvalue, hn⟩ := ih hlt hread
        exact ⟨value?_cons_eq_some.mpr ⟨d, hd, hvalue⟩, hn⟩
      · cases hread

/-- Reading stops at the limit if digits at the beginning denote a number that has reached it. -/
theorem accumulate_eq_overflow_iff (below : acc < limit) :
    accumulate radix limit acc cs = .error .overflow ↔
      ∃ digits rest n, cs = digits ++ rest ∧ value? radix acc digits = some n ∧ limit ≤ n := by
  induction cs generalizing acc with
  | nil =>
    refine iff_of_false (fun hread => by cases hread) ?_
    rintro ⟨digits, rest, n, hsplit, hvalue, hle⟩
    obtain ⟨rfl, -⟩ := List.append_eq_nil_iff.mp hsplit.symm
    cases hvalue
    omega
  | cons c cs ih =>
    constructor
    · intro hread
      unfold accumulate at hread
      split at hread
      · cases hread
      · next d hd =>
        split at hread
        · next hlt =>
          obtain ⟨digits, rest, n, rfl, hvalue, hle⟩ := (ih hlt).mp hread
          exact ⟨c :: digits, rest, n, rfl, value?_cons_eq_some.mpr ⟨d, hd, hvalue⟩, hle⟩
        · next hge =>
          -- the digit that reaches the limit is the last one that is looked at
          exact ⟨[c], cs, acc * radix + d, rfl, value?_cons_eq_some.mpr ⟨d, hd, rfl⟩,
            Nat.not_lt.mp hge⟩
    · rintro ⟨digits, rest, n, hsplit, hvalue, hle⟩
      cases digits with
      | nil =>
        cases hvalue
        omega
      | cons c' digits =>
        obtain ⟨rfl, rfl⟩ := List.cons_eq_cons.mp hsplit
        obtain ⟨d, hd, hrest⟩ := value?_cons_eq_some.mp hvalue
        by_cases hlt : acc * radix + d < limit
        · simp only [accumulate, hd, if_pos hlt]
          exact (ih hlt).mpr ⟨digits, rest, n, rfl, hrest, hle⟩
        · simp only [accumulate, hd, if_neg hlt]

/-! ## Signs -/

/-- The ways in which a numeral is signed. -/
def signs : List (List Char) := [[], ['+']]

theorem eq_plus_of_mem : ∀ sign ∈ signs, ∀ c ∈ sign, c = '+' := by simp [signs]

/-- A signed numeral is made of digits and a plus sign. -/
theorem Numeral.not_mem_signed (numeral : Numeral radix n digits) (signed : sign ∈ signs)
    (hc : Hex.value? c = none) (hplus : c ≠ '+') : c ∉ sign ++ digits := by
  intro mem
  rcases List.mem_append.mp mem with mem | mem
  · exact hplus (eq_plus_of_mem sign signed c mem)
  · exact not_mem_of_value? numeral.value?_eq hc mem

/-- The text after a plus sign, if something comes after it. -/
def unsigned : List Char → List Char
  | '+' :: c :: cs => c :: cs
  | cs => cs

theorem exists_sign (cs : List Char) : ∃ sign ∈ signs, cs = sign ++ unsigned cs := by
  unfold unsigned
  split
  · exact ⟨['+'], by decide, rfl⟩
  · exact ⟨[], by decide, rfl⟩

theorem unsigned_append (signed : sign ∈ signs) (hc : c ≠ '+') :
    unsigned (sign ++ c :: cs) = c :: cs := by
  simp only [signs, List.mem_cons, List.not_mem_nil, or_false] at signed
  rcases signed with rfl | rfl
  · unfold unsigned
    split
    · next heq => exact absurd (List.cons.inj heq).1 hc
    · rfl
  · rfl

theorem read_eq (cs : List Char) :
    read radix limit cs =
      if cs = [] then .error .invalid else accumulate radix limit 0 (unsigned cs) := by
  unfold read unsigned
  split
  · rfl
  · rfl
  · next hnil hplus =>
    rw [if_neg hnil]
    split
    · next c cs => exact absurd rfl (hplus c cs)
    · rfl

/-- What is read is a numeral below the limit, after a plus sign or none. -/
theorem read_eq_ok_iff (pos : 0 < radix) (room : 0 < limit) :
    read radix limit cs = .ok n ↔
      ∃ sign ∈ signs, ∃ digits, cs = sign ++ digits ∧ Numeral radix n digits ∧ n < limit := by
  rw [read_eq]
  constructor
  · intro hread
    split at hread
    · cases hread
    · next hne =>
      obtain ⟨hvalue, hlt⟩ := (accumulate_eq_ok_iff pos room).mp hread
      obtain ⟨sign, signed, hsplit⟩ := exists_sign cs
      have some_digit : unsigned cs ≠ [] := by
        intro hnil
        unfold unsigned at hnil
        split at hnil
        · cases hnil
        · exact hne hnil
      exact ⟨sign, signed, unsigned cs, hsplit, numeral_iff.mpr ⟨some_digit, hvalue⟩, hlt⟩
  · rintro ⟨sign, signed, digits, rfl, numeral, hlt⟩
    rw [if_neg (List.append_ne_nil_of_right_ne_nil _ numeral.some_digit)]
    have hvalue := numeral.value?_eq
    obtain ⟨c, rest, rfl, hc⟩ := numeral.exists_cons
    rw [unsigned_append signed hc]
    exact accumulate_eq_ok pos hvalue hlt

/-- What is out of range starts with a numeral that has reached the limit. -/
theorem read_eq_overflow_iff (room : 0 < limit) :
    read radix limit cs = .error .overflow ↔
      ∃ sign ∈ signs, ∃ digits rest n, cs = sign ++ (digits ++ rest) ∧ Numeral radix n digits ∧
        limit ≤ n := by
  rw [read_eq]
  constructor
  · intro hread
    split at hread
    · cases hread
    · obtain ⟨digits, rest, n, hsplit, hvalue, hle⟩ := (accumulate_eq_overflow_iff room).mp hread
      obtain ⟨sign, signed, hsigned⟩ := exists_sign cs
      rw [hsplit] at hsigned
      refine ⟨sign, signed, digits, rest, n, hsigned, numeral_iff.mpr ⟨?_, hvalue⟩, hle⟩
      rintro rfl
      cases hvalue
      omega
  · rintro ⟨sign, signed, digits, rest, n, rfl, numeral, hle⟩
    have hvalue := numeral.value?_eq
    obtain ⟨c, digits, rfl, hc⟩ := numeral.exists_cons
    rw [List.cons_append, if_neg (List.append_ne_nil_of_right_ne_nil _ (List.cons_ne_nil _ _)),
      unsigned_append signed hc]
    exact (accumulate_eq_overflow_iff room).mpr ⟨c :: digits, rest, n, rfl, hvalue, hle⟩

/-- A 64-bit number is read from its decimal numerals. -/
theorem decimal64?_eq_some_iff {text : String} {w : UInt64} :
    decimal64? text = some w ↔
      ∃ sign ∈ signs, ∃ digits, text.toList = sign ++ digits ∧ Numeral 10 w.toNat digits := by
  have hread : decimal64? text = some w ↔ read 10 UInt64.size text.toList = .ok w.toNat := by
    unfold decimal64?
    constructor
    · intro h
      split at h
      · next n hn =>
        cases h
        have hlt : n < UInt64.size := by
          obtain ⟨-, -, -, -, -, hlt⟩ := (read_eq_ok_iff (by decide) (by decide)).mp hn
          exact hlt
        rw [hn, UInt64.toNat_ofNat_of_lt' hlt]
      · cases h
    · intro h
      rw [h]
      exact congrArg some UInt64.ofNat_toNat
  rw [hread, read_eq_ok_iff (by decide) (by decide)]
  constructor
  · rintro ⟨sign, signed, digits, hsplit, numeral, -⟩
    exact ⟨sign, signed, digits, hsplit, numeral⟩
  · rintro ⟨sign, signed, digits, hsplit, numeral⟩
    exact ⟨sign, signed, digits, hsplit, numeral, w.toNat_lt⟩

end Radix

end IstanbulMonitor
