import WorkerPool.Json.Compact
import Mathlib.Tactic.IntervalCases

/-!
The grammar of JSON text, and its lexical parts as they are read.

The grammar says how blanks, strings and numbers are written and how values are put together from
them. A string spells characters only if its escapes do; any other string can only be skipped. What
the grammar gives is read or skipped up to its end, whatever follows, provided that a number is not
followed by something that would go on with it.
-/
namespace WorkerPool.Json

/-! ### Blanks -/

def Blanks (cs : List Char) : Prop := ∀ c ∈ cs, c ∈ [' ', '\t', '\n', '\r']

/-- A text with blanks around it. -/
inductive Padded (core : List Char) : List Char → Prop
  | mk {b b' : List Char} : Blanks b → Blanks b' → Padded core (b ++ (core ++ b'))

/-! ### Strings -/

/-- A hexadecimal digit in either case. -/
inductive HexDigit (d : Nat) : Char → Prop
  | lower : d < 16 → HexDigit d d.digitChar
  | upper : d < 16 → HexDigit d d.digitChar.toUpper

/-- A number in four hexadecimal digits. -/
inductive CodeUnit : Nat → List Char → Prop
  | mk {k l m n : Nat} {a b c d : Char} : HexDigit k a → HexDigit l b → HexDigit m c →
      HexDigit n d → CodeUnit (((k * 16 + l) * 16 + m) * 16 + n) [a, b, c, d]

/-- The letters of short escapes and the characters that they stand for. -/
def shortEscapes : List (Char × Char) :=
  [('"', '"'), ('\\', '\\'), ('/', '/'), ('b', '\x08'), ('f', '\x0c'), ('n', '\n'), ('r', '\r'),
    ('t', '\t')]

/-- Characters that may stand for themselves between quotes. -/
def IsPlain (c : Char) : Prop := 0x20 ≤ c.toNat ∧ c ≠ '"' ∧ c ≠ '\\'

instance : DecidablePred IsPlain := fun c =>
  inferInstanceAs (Decidable (0x20 ≤ c.toNat ∧ c ≠ '"' ∧ c ≠ '\\'))

/-- The ways to write a character between quotes. A character beyond the first 65536 takes two code
units if it is escaped. -/
inductive Spelling (c : Char) : List Char → Prop
  | plain : IsPlain c → Spelling c [c]
  | short {e : Char} : (e, c) ∈ shortEscapes → Spelling c ['\\', e]
  | unit {u : List Char} : CodeUnit c.toNat u → Spelling c ('\\' :: 'u' :: u)
  | pair {u v : List Char} : 0x10000 ≤ c.toNat →
      CodeUnit (0xd800 + (c.toNat - 0x10000) / 0x400) u →
      CodeUnit (0xdc00 + (c.toNat - 0x10000) % 0x400) v →
      Spelling c ('\\' :: 'u' :: (u ++ '\\' :: 'u' :: v))

/-- The ways to write a text between quotes. -/
inductive Spells : List Char → List Char → Prop
  | nil : Spells [] []
  | cons {c : Char} {cs t ts : List Char} : Spelling c t → Spells cs ts →
      Spells (c :: cs) (t ++ ts)

/-- What may stand between quotes. An escaped code unit need not be a character, nor half of one. -/
inductive Quoted : List Char → Prop
  | nil : Quoted []
  | plain {c : Char} {ts : List Char} : IsPlain c → Quoted ts → Quoted (c :: ts)
  | short {e c : Char} {ts : List Char} : (e, c) ∈ shortEscapes → Quoted ts →
      Quoted ('\\' :: e :: ts)
  | unit {n : Nat} {u ts : List Char} : CodeUnit n u → Quoted ts →
      Quoted ('\\' :: 'u' :: (u ++ ts))

/-! ### Numbers -/

def Digits (ds : List Char) : Prop := ∀ d ∈ ds, d.isDigit

/-- A whole number has no leading zeros. -/
inductive Whole : List Char → Prop
  | zero : Whole ['0']
  | digits {d : Char} {ds : List Char} : d.isDigit → d ≠ '0' → Digits ds → Whole (d :: ds)

inductive Fraction : List Char → Prop
  | absent : Fraction []
  | present {ds : List Char} : ds ≠ [] → Digits ds → Fraction ('.' :: ds)

inductive Exponent : List Char → Prop
  | absent : Exponent []
  | present {letter : Char} {sign ds : List Char} : letter ∈ ['e', 'E'] →
      sign ∈ [[], ['+'], ['-']] → ds ≠ [] → Digits ds → Exponent (letter :: (sign ++ ds))

/-- Numbers of any size and precision. -/
inductive Numeral : List Char → Prop
  | mk {sign w f e : List Char} : sign ∈ [[], ['-']] → Whole w → Fraction f → Exponent e →
      Numeral (sign ++ (w ++ (f ++ e)))

/-! ### Values -/

/-- Things one after the other, with commas between them. -/
inductive Separated {α : Type} (Writes : α → List Char → Prop) : List α → List Char → Prop
  | one {a : α} {t : List Char} : Writes a t → Separated Writes [a] t
  | more {a : α} {as : List α} {t ts : List Char} : Writes a t → Separated Writes as ts →
      Separated Writes (a :: as) (t ++ ',' :: ts)

/-- Any number of things between brackets. -/
inductive Bracketed {α : Type} (Writes : α → List Char → Prop) (opening closing : Char) :
    List α → List Char → Prop
  | empty {b : List Char} : Blanks b →
      Bracketed Writes opening closing [] (opening :: (b ++ [closing]))
  | full {as : List α} {ts : List Char} : Separated Writes as ts →
      Bracketed Writes opening closing as (opening :: (ts ++ [closing]))

/-- The name of a member, as it is written between quotes, and its value. -/
inductive Member (name value : List Char) : List Char → Prop
  | mk {b b' t : List Char} : Blanks b → Blanks b' →
      Padded ('"' :: (name ++ '"' :: (b ++ ':' :: (b' ++ value)))) t → Member name value t

/-- Well-formed values. -/
inductive IsValue : List Char → Prop
  | word {w : String} : w ∈ ["null", "true", "false"] → IsValue w.toList
  | number {n : List Char} : Numeral n → IsValue n
  | string {s : List Char} : Quoted s → IsValue ('"' :: (s ++ ['"']))
  | array {items : List (List Char)} {t : List Char} : (∀ v ∈ items, IsValue v) →
      Bracketed Padded '[' ']' items t → IsValue t
  | object {members : List (List Char × List Char)} {t : List Char} :
      (∀ m ∈ members, Quoted m.1) → (∀ m ∈ members, IsValue m.2) →
      Bracketed (fun m => Member m.1 m.2) '\x7b' '\x7d' members t → IsValue t

/-! ### What follows -/

/-- Nothing follows that would be read as part of a value before it. -/
def Ended (cs : List Char) : Prop :=
  ∀ c ∈ cs.head?, c ∈ [' ', '\t', '\n', '\r', ',', ']', '\x7d']

variable {b cs t u v rest f w x : List Char} {c e : Char} {n m fuel : Nat}

theorem Padded.exists_blanks (h : Padded v t) :
    ∃ b b', Blanks b ∧ Blanks b' ∧ t = b ++ (v ++ b') := by
  obtain ⟨hb, hb'⟩ := h
  exact ⟨_, _, hb, hb', rfl⟩

theorem Ended.cases (h : Ended rest) :
    rest = [] ∨ ∃ c cs, rest = c :: cs ∧ c ∈ [' ', '\t', '\n', '\r', ',', ']', '\x7d'] := by
  cases rest with
  | nil => exact .inl rfl
  | cons c cs => exact .inr ⟨c, cs, rfl, h c rfl⟩

theorem ended_cons (h : c ∈ [' ', '\t', '\n', '\r', ',', ']', '\x7d']) : Ended (c :: cs) := by
  intro d hd
  cases hd
  exact h

theorem Ended.blanks (h : Ended rest) (hb : Blanks b) : Ended (b ++ rest) := by
  cases b with
  | nil => exact h
  | cons c b =>
    have hc := hb c List.mem_cons_self
    refine ended_cons ?_
    simp only [List.mem_cons, List.not_mem_nil, or_false] at hc ⊢
    tauto

/-! ### Blanks and words -/

theorem isBlank_of_mem (h : c ∈ [' ', '\t', '\n', '\r']) : isBlank c := by
  simp only [List.mem_cons, List.not_mem_nil, or_false] at h
  rcases h with rfl | rfl | rfl | rfl <;> rfl

theorem skipBlanks_append (hb : Blanks b) (cs : List Char) :
    skipBlanks (b ++ cs) = skipBlanks cs :=
  List.dropWhile_append_of_pos fun c hc => isBlank_of_mem (hb c hc)

theorem isBlank_of_isDigit (h : c.isDigit) : isBlank c = false := by
  have hc : ∀ d : Char, d.isDigit = false → c ≠ d := by
    rintro d hd rfl
    simp [h] at hd
  simp [isBlank, hc]

@[simp] theorem skipBlanks_cons (h : isBlank c = false) : skipBlanks (c :: cs) = c :: cs :=
  List.dropWhile_cons_of_neg (by simp [h])

theorem readWord_append (word cs : List Char) : readWord word (word ++ cs) = .ok cs := by
  induction word with
  | nil => rfl
  | cons w word ih => simpa [readWord] using ih

/-! ### Strings that are read -/

theorem HexDigit.value (h : HexDigit n c) : hexDigit? c = some n := by
  cases h with
  | lower hn => interval_cases n <;> rfl
  | upper hn => interval_cases n <;> rfl

theorem CodeUnit.read (h : CodeUnit n u) (cs : List Char) :
    readUnit (u ++ cs) = .ok (n, cs) := by
  cases h with
  | mk ha hb hc hd => simp [readUnit, ha.value, hb.value, hc.value, hd.value]

theorem readEscape_short (h : (e, c) ∈ shortEscapes) (cs : List Char) :
    readEscape (e :: cs) = .ok (c, cs) := by
  simp only [shortEscapes, List.mem_cons, Prod.mk.injEq, List.not_mem_nil, or_false] at h
  rcases h with ⟨rfl, rfl⟩ | ⟨rfl, rfl⟩ | ⟨rfl, rfl⟩ | ⟨rfl, rfl⟩ | ⟨rfl, rfl⟩ | ⟨rfl, rfl⟩ |
    ⟨rfl, rfl⟩ | ⟨rfl, rfl⟩ <;> rfl

/-- A character is no surrogate, so that its code unit is read as it stands. -/
theorem readEscape_unit (h : CodeUnit c.toNat u) (cs : List Char) :
    readEscape ('u' :: (u ++ cs)) = .ok (c, cs) := by
  have valid : c.toNat < 0xd800 ∨ 0xdfff < c.toNat ∧ c.toNat < 0x110000 := c.valid
  have low : isLowSurrogate c.toNat = false := by
    simp only [isLowSurrogate, Bool.and_eq_false_iff, decide_eq_false_iff_not]
    omega
  have high : isHighSurrogate c.toNat = false := by
    simp only [isHighSurrogate, Bool.and_eq_false_iff, decide_eq_false_iff_not]
    omega
  simp [readEscape, h.read cs, low, high, bind, Except.bind, pure, Except.pure]

theorem readEscape_pair (hc : 0x10000 ≤ c.toNat)
    (hu : CodeUnit (0xd800 + (c.toNat - 0x10000) / 0x400) u)
    (hv : CodeUnit (0xdc00 + (c.toNat - 0x10000) % 0x400) v) (cs : List Char) :
    readEscape ('u' :: (u ++ '\\' :: 'u' :: (v ++ cs))) = .ok (c, cs) := by
  have valid : c.toNat < 0xd800 ∨ 0xdfff < c.toNat ∧ c.toNat < 0x110000 := c.valid
  obtain ⟨k, hk⟩ : ∃ k, c.toNat = k + 0x10000 := ⟨c.toNat - 0x10000, by omega⟩
  simp only [hk, Nat.add_sub_cancel] at hu hv
  have first : isLowSurrogate (0xd800 + k / 0x400) = false ∧
      isHighSurrogate (0xd800 + k / 0x400) = true := by
    simp only [isLowSurrogate, isHighSurrogate, Bool.and_eq_false_iff, Bool.and_eq_true,
      decide_eq_false_iff_not, decide_eq_true_eq]
    omega
  have second : isLowSurrogate (0xdc00 + k % 0x400) = true := by
    simp only [isLowSurrogate, Bool.and_eq_true, decide_eq_true_eq]
    omega
  have joined : k / 0x400 * 0x400 + k % 0x400 + 0x10000 = c.toNat := by omega
  simp [readEscape, readLowSurrogate, hu.read, hv.read, first, second, joined, bind, Except.bind,
    pure, Except.pure]

theorem readChars_escape (h : readEscape cs = .ok (c, rest)) :
    readChars (fuel + 1) ('\\' :: cs) = (readChars fuel rest).map fun r => (c :: r.1, r.2) := by
  simp only [readChars, h, bind, Except.bind]
  cases readChars fuel rest <;> rfl

theorem readChars_plain (h : IsPlain c) :
    readChars (fuel + 1) (c :: cs) = (readChars fuel cs).map fun r => (c :: r.1, r.2) := by
  obtain ⟨hc, hquote, hslash⟩ := h
  rw [readChars, if_neg (by omega)]
  · simp only [bind, Except.bind]
    cases readChars fuel cs <;> rfl
  · exact hquote
  · exact hslash

/-- A character is read however it is written. -/
theorem Spelling.read (h : Spelling c t) (cs : List Char) :
    readChars (fuel + 1) (t ++ cs) = (readChars fuel cs).map fun r => (c :: r.1, r.2) := by
  cases h with
  | plain hc => exact readChars_plain hc
  | short he => exact readChars_escape (readEscape_short he cs)
  | unit hu => exact readChars_escape (readEscape_unit hu cs)
  | @pair u v hc hu hv =>
    have escape : readChars (fuel + 1) ('\\' :: 'u' :: (u ++ '\\' :: 'u' :: (v ++ cs))) = _ :=
      readChars_escape (readEscape_pair hc hu hv cs)
    simpa using escape

theorem Spelling.length_pos (h : Spelling c t) : 0 < t.length := by
  cases h <;> simp

theorem Spells.readChars (h : Spells cs t) (hfuel : t.length < fuel) (rest : List Char) :
    Json.readChars fuel (t ++ '"' :: rest) = .ok (cs, rest) := by
  induction h generalizing fuel with
  | nil =>
    cases fuel with
    | zero => cases hfuel
    | succ fuel => rfl
  | @cons c cs t ts spelling _ ih =>
    have hpos := spelling.length_pos
    rw [List.length_append] at hfuel
    cases fuel with
    | zero => cases hfuel
    | succ fuel =>
      rw [List.append_assoc, spelling.read, ih (by omega)]
      rfl

/-- A text is read however it is written. -/
theorem Spells.read (h : Spells cs t) (rest : List Char) :
    readString (t ++ '"' :: rest) = .ok (cs, rest) :=
  h.readChars (by rw [List.length_append, List.length_cons]; omega) rest

theorem skipChars_escape (h : skipEscape cs = .ok rest) :
    skipChars (fuel + 1) ('\\' :: cs) = skipChars fuel rest := by
  simp only [skipChars, h, bind, Except.bind]

theorem skipChars_plain (h : IsPlain c) :
    skipChars (fuel + 1) (c :: cs) = skipChars fuel cs := by
  obtain ⟨hc, hquote, hslash⟩ := h
  rw [skipChars, if_neg (by omega)] <;> assumption

theorem skipEscape_short (h : (e, c) ∈ shortEscapes) (cs : List Char) :
    skipEscape (e :: cs) = .ok cs := by
  have hu : e ≠ 'u' := by
    rintro rfl
    simp [shortEscapes] at h
  rw [skipEscape, readEscape_short h]
  · rfl
  · simpa using hu

theorem skipEscape_unit (h : CodeUnit n u) (cs : List Char) :
    skipEscape ('u' :: (u ++ cs)) = .ok cs := by
  simp only [skipEscape, h.read, bind, Except.bind, pure, Except.pure]

theorem Quoted.skipChars (h : Quoted t) (hfuel : t.length < fuel) (rest : List Char) :
    Json.skipChars fuel (t ++ '"' :: rest) = .ok rest := by
  induction h generalizing fuel with
  | nil =>
    cases fuel with
    | zero => cases hfuel
    | succ fuel => rfl
  | @plain c ts hc _ ih =>
    rw [List.length_cons] at hfuel
    cases fuel with
    | zero => cases hfuel
    | succ fuel => rw [List.cons_append, skipChars_plain hc, ih (by omega)]
  | @short e c ts he _ ih =>
    simp only [List.length_cons] at hfuel
    cases fuel with
    | zero => cases hfuel
    | succ fuel =>
      rw [List.cons_append, List.cons_append, skipChars_escape (skipEscape_short he _),
        ih (by omega)]
  | @unit n u ts hu _ ih =>
    simp only [List.length_cons, List.length_append] at hfuel
    cases fuel with
    | zero => cases hfuel
    | succ fuel =>
      rw [List.cons_append, List.cons_append, List.append_assoc,
        skipChars_escape (skipEscape_unit hu _), ih (by omega)]

theorem Quoted.skip (h : Quoted t) (rest : List Char) :
    skipString (t ++ '"' :: rest) = .ok rest :=
  h.skipChars (by rw [List.length_append, List.length_cons]; omega) rest

/-! ### Numbers that are read -/

/-- No digit comes first. -/
def NoDigit (cs : List Char) : Prop := ∀ c ∈ cs.head?, c.isDigit = false

theorem Ended.noDigit (h : Ended rest) : NoDigit rest := by
  intro c hc
  have := h c hc
  simp only [List.mem_cons, List.not_mem_nil, or_false] at this
  rcases this with rfl | rfl | rfl | rfl | rfl | rfl | rfl <;> rfl

theorem head?_any_isDigit (h : NoDigit rest) : rest.head?.any Char.isDigit = false := by
  cases rest with
  | nil => rfl
  | cons c rest => exact h c rfl

theorem span_digits {ds : List Char} (hds : Digits ds) (h : NoDigit rest) :
    (ds ++ rest).takeWhile Char.isDigit = ds ∧ (ds ++ rest).dropWhile Char.isDigit = rest := by
  rw [List.takeWhile_append_of_pos hds, List.dropWhile_append_of_pos hds]
  cases rest with
  | nil => simp
  | cons c rest => simp [h c rfl]

theorem skipDigits_append {ds : List Char} (hne : ds ≠ []) (hds : Digits ds) (h : NoDigit rest) :
    skipDigits (ds ++ rest) = .ok rest := by
  obtain ⟨d, ds', rfl⟩ := List.exists_cons_of_ne_nil hne
  have hd : d.isDigit := hds d List.mem_cons_self
  rw [skipDigits, (span_digits hds h).2]
  simp [hd]

theorem skipExponent_ended (ended : Ended rest) : skipExponent rest = .ok rest := by
  obtain rfl | ⟨c, cs, rfl, hc⟩ := ended.cases
  · rfl
  · simp only [List.mem_cons, List.not_mem_nil, or_false] at hc
    rcases hc with rfl | rfl | rfl | rfl | rfl | rfl | rfl <;> rfl

theorem skipExponent_unsigned {d : Char} (hletter : e ∈ ['e', 'E']) (hd : d.isDigit) :
    skipExponent (e :: d :: cs) = skipDigits (d :: cs) := by
  have hplus : d ≠ '+' := by rintro rfl; cases hd
  have hminus : d ≠ '-' := by rintro rfl; cases hd
  simp only [List.mem_cons, List.not_mem_nil, or_false] at hletter
  rcases hletter with rfl | rfl <;> simp [skipExponent, hplus, hminus]

theorem skipExponent_signed (hletter : e ∈ ['e', 'E']) (hsign : c ∈ ['+', '-']) :
    skipExponent (e :: c :: cs) = skipDigits cs := by
  simp only [List.mem_cons, List.not_mem_nil, or_false] at hletter hsign
  rcases hletter with rfl | rfl <;> rcases hsign with rfl | rfl <;> rfl

theorem Exponent.skip (h : Exponent x) (ended : Ended rest) :
    skipExponent (x ++ rest) = .ok rest := by
  cases h with
  | absent => exact skipExponent_ended ended
  | @present letter sign ds hletter hsign hne hds =>
    have digits := skipDigits_append hne hds ended.noDigit
    simp only [List.mem_cons, List.not_mem_nil, or_false] at hsign
    rcases hsign with rfl | rfl | rfl
    · obtain ⟨d, ds, rfl⟩ := List.exists_cons_of_ne_nil hne
      exact (skipExponent_unsigned hletter (hds d List.mem_cons_self)).trans digits
    · exact (skipExponent_signed hletter (by simp)).trans digits
    · exact (skipExponent_signed hletter (by simp)).trans digits

theorem Exponent.noDigit (h : Exponent x) (ended : Ended rest) : NoDigit (x ++ rest) := by
  cases h with
  | absent => exact ended.noDigit
  | present hletter _ _ _ =>
    intro c hc
    cases hc
    simp only [List.mem_cons, List.not_mem_nil, or_false] at hletter
    rcases hletter with rfl | rfl <;> rfl

theorem Fraction.noDigit (hf : Fraction f) (hx : Exponent x) (ended : Ended rest) :
    NoDigit (f ++ (x ++ rest)) := by
  cases hf with
  | absent => exact hx.noDigit ended
  | present _ _ =>
    intro c hc
    cases hc
    rfl

theorem Exponent.no_point (hx : Exponent x) (ended : Ended rest) : '.' ∉ (x ++ rest).head? := by
  intro h
  cases hx with
  | absent => simpa using ended _ h
  | present hletter _ _ _ =>
    cases h
    simp at hletter

/-- What is skipped after the whole part of a number. -/
def skipRest : List Char → Except Fault (List Char)
  | '.' :: cs => do skipExponent (← skipDigits cs)
  | cs => skipExponent cs

theorem Fraction.skip (hf : Fraction f) (hx : Exponent x) (ended : Ended rest) :
    skipRest (f ++ (x ++ rest)) = .ok rest := by
  cases hf with
  | absent =>
    rw [List.nil_append, skipRest, hx.skip ended]
    intro cs h
    exact hx.no_point ended (by simp [h])
  | present hne hds =>
    simp only [List.cons_append, skipRest, skipDigits_append hne hds (hx.noDigit ended), bind,
      Except.bind, hx.skip ended]

theorem Whole.head (hw : Whole w) : ∃ d ds, w = d :: ds ∧ d.isDigit := by
  cases hw with
  | zero => exact ⟨_, _, rfl, rfl⟩
  | digits hd _ _ => exact ⟨_, _, rfl, hd⟩

theorem Whole.skip (hw : Whole w) (h : NoDigit rest) :
    skipNumber (w ++ rest) = skipRest rest := by
  cases hw with
  | zero =>
    simp only [List.cons_append, List.nil_append, skipNumber, head?_any_isDigit h,
      Bool.false_eq_true, if_false]
    rfl
  | @digits d ds hd hne hds =>
    have digits : skipDigits (d :: ds ++ rest) = .ok rest :=
      skipDigits_append (List.cons_ne_nil d ds) (List.forall_mem_cons.mpr ⟨hd, hds⟩) h
    rw [List.cons_append] at digits ⊢
    rw [skipNumber]
    · rw [digits]
      rfl
    · simpa using hne

/-- A number is skipped after its sign. -/
theorem Whole.skipNumber (hw : Whole w) (hf : Fraction f) (hx : Exponent x) (ended : Ended rest) :
    Json.skipNumber (w ++ (f ++ (x ++ rest))) = .ok rest :=
  (hw.skip (hf.noDigit hx ended)).trans (hf.skip hx ended)

/-! ### Counters -/

theorem absorbWhole_eq {ds : List Char} (h : Nat.ofDigitChars 10 ds m < wordLimit) :
    absorbWhole m ds = (Nat.ofDigitChars 10 ds m, 0) := by
  induction ds generalizing m with
  | nil => rfl
  | cons d ds ih =>
    have hnext : 10 * m + (d.toNat - '0'.toNat) = m * 10 + digit d := by
      rw [digit, Nat.mul_comm]
    rw [Nat.ofDigitChars_cons, hnext] at h ⊢
    have hle : m * 10 + digit d ≤ Nat.ofDigitChars 10 ds (m * 10 + digit d) := by
      rw [Nat.ofDigitChars_eq_ofDigitChars_zero]
      exact (Nat.le_mul_of_pos_left _ (Nat.pow_pos (by decide))).trans (Nat.le_add_right _ _)
    rw [absorbWhole, if_pos (hle.trans_lt h), ih h]

/-- A decimal number has no leading zeros. -/
theorem toDigits_head (hn : 0 < n) : ∃ d ds, Nat.toDigits 10 n = d :: ds ∧ d ≠ '0' := by
  induction n using Nat.strongRecOn with
  | ind n ih =>
    rw [Nat.toDigits_eq_if (by decide)]
    split
    · exact ⟨_, [], rfl, by simpa using hn.ne'⟩
    · obtain ⟨d, ds, hd, hne⟩ := ih (n / 10) (by omega) (by omega)
      exact ⟨d, ds ++ [(n % 10).digitChar], by rw [hd, List.cons_append], hne⟩

theorem digits_toDigits (n : Nat) : Digits (Nat.toDigits 10 n) :=
  fun _ => Nat.isDigit_of_mem_toDigits (by decide) (by decide)

theorem readTail_ended (ended : Ended rest) : readTail n 0 rest = .ok (some n, rest) := by
  obtain rfl | ⟨c, cs, rfl, hc⟩ := ended.cases
  · rfl
  · simp only [List.mem_cons, List.not_mem_nil, or_false] at hc
    rcases hc with rfl | rfl | rfl | rfl | rfl | rfl | rfl <;> rfl

/-- A decimal number that fits 64 bits is read as it is. -/
theorem readNumber_toDigits (hn : n < wordLimit) (ended : Ended rest) :
    readNumber (Nat.toDigits 10 n ++ rest) = .ok (some n, rest) := by
  obtain ⟨htake, hdrop⟩ := span_digits (digits_toDigits n) ended.noDigit
  rcases Nat.eq_zero_or_pos n with rfl | hpos
  · have : rest.head?.any Char.isDigit = false := head?_any_isDigit ended.noDigit
    simp [Nat.toDigits_zero, readNumber, this, readTail_ended ended]
  · have absorbed : absorbWhole 0 (Nat.toDigits 10 n) = (n, 0) := by
      rw [absorbWhole_eq (by rwa [Nat.ofDigitChars_ten_toDigits]), Nat.ofDigitChars_ten_toDigits]
    obtain ⟨d, ds, hds, hne⟩ := toDigits_head hpos
    have hd : d.isDigit := digits_toDigits n d (by simp [hds])
    rw [hds, List.cons_append] at htake hdrop ⊢
    rw [readNumber, if_pos hd, htake, hdrop, ← hds, absorbed]
    · exact readTail_ended ended
    · simpa using hne

/-- A counter in decimal digits. -/
def decimal (n : UInt64) : List Char := Nat.toDigits 10 n.toNat

theorem readCounter_decimal (n : UInt64) (hb : Blanks b) (ended : Ended rest) :
    readCounter (b ++ (decimal n ++ rest)) = .ok (n, rest) := by
  have number : readNumber (decimal n ++ rest) = .ok (some n.toNat, rest) :=
    readNumber_toDigits n.toNat_lt ended
  obtain ⟨d, ds, hds⟩ : ∃ d ds, decimal n = d :: ds :=
    List.exists_cons_of_ne_nil Nat.toDigits_ne_nil
  have hd : d.isDigit := digits_toDigits n.toNat d (by
    have : d ∈ decimal n := by simp [hds]
    exact this)
  rw [hds, List.cons_append] at number ⊢
  rw [readCounter, skipBlanks_append hb, skipBlanks_cons (isBlank_of_isDigit hd)]
  split
  · next h => cases h
  · next h =>
    obtain ⟨rfl, -⟩ := List.cons.inj h
    cases hd
  · next h =>
    obtain ⟨rfl, rfl⟩ := List.cons.inj h
    simp [hd, number, bind, Except.bind, pure, Except.pure]

end WorkerPool.Json
