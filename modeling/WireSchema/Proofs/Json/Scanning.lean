import Mathlib.Data.List.TakeDrop
import Mathlib.Data.List.TakeWhile
import WireSchema.Json.Token
import WireSchema.Proofs.Json.Texts
import WireSchema.Proofs.Runs

/-! # Cutting texts into tokens

The tokens of texts that spell documents. Blanks give none, marks and quoted texts give one each,
and a word gives one where it ends: a run goes on as long as its characters do, so that a word is
told together with the blank, the mark or the quote that **stops** it. -/

namespace WireSchema.Json

open Token (scanFrom ofRun classify)

/-! ## (1) Blanks and runs -/

/-- Blanks between tokens are passed over. -/
theorem scanFrom_blank {blanks : List Char} (blank : IsBlank blanks) (rest : List Char) :
    scanFrom (.run []) (blanks ++ rest) = scanFrom (.run []) rest := by
  induction blanks with
  | nil => rfl
  | cons c others induction =>
      have later := induction fun c held => blank c (List.mem_cons_of_mem _ held)
      rcases blank c List.mem_cons_self with rfl | rfl | rfl | rfl <;> exact later

/-- Characters of a run are kept until it is over. -/
theorem scanFrom_word {word : List Char} (plain : ∀ c ∈ word, classify c = .plain)
    (reversed rest : List Char) :
    scanFrom (.run reversed) (word ++ rest) = scanFrom (.run (word.reverse ++ reversed)) rest := by
  induction word generalizing reversed with
  | nil => rfl
  | cons c others induction =>
      have here := plain c List.mem_cons_self
      rw [List.cons_append, scanFrom, here]
      simp only
      rw [induction fun c held => plain c (List.mem_cons_of_mem _ held), List.reverse_cons,
        List.append_assoc]
      rfl

/-- A text **stops** a run: it starts with a blank, a mark or a quote. -/
def StopsRun (text : List Char) : Prop := ∃ c rest, text = c :: rest ∧ classify c ≠ .plain

/-- A run that is stopped gives its tokens before what stops it. -/
theorem scanFrom_of_stopsRun {behind : List Char} (stops : StopsRun behind)
    (reversed : List Char) :
    scanFrom (.run reversed) behind =
      ofRun reversed.reverse false ++ scanFrom (.run []) behind := by
  obtain ⟨c, rest, rfl, notPlain⟩ := stops
  have empty : ofRun ([] : List Char).reverse false = [] := rfl
  rw [scanFrom, scanFrom, empty]
  cases class_ : classify c with
  | plain => exact absurd class_ notPlain
  | _ => rfl

/-- A word gives its tokens. -/
theorem scan_word {word behind : List Char} (plain : ∀ c ∈ word, classify c = .plain)
    (stops : StopsRun behind) :
    scanFrom (.run []) (word ++ behind) = ofRun word false ++ scanFrom (.run []) behind := by
  rw [scanFrom_word plain, scanFrom_of_stopsRun stops, List.append_nil, List.reverse_reverse]

/-! ## (2) Numbers -/

/-- A digit belongs to a plain token. -/
theorem classify_of_isDigit {c : Char} (digit : c.isDigit = true) : classify c = .plain := by
  unfold classify
  split <;> first | rfl | exact absurd digit (by decide)

/-- A text that does not start with a digit. -/
def StopsDigits (text : List Char) : Prop := ∀ c ∈ text.head?, c.isDigit = false

/-- Digits are split off up to what stops them. -/
theorem splitDigits_append {digits rest : List Char} (areDigits : AreDigits digits)
    (stops : StopsDigits rest) : Token.splitDigits (digits ++ rest) = (digits, rest) := by
  have ends : rest.takeWhile Char.isDigit = [] ∧ rest.dropWhile Char.isDigit = rest := by
    cases rest with
    | nil => exact ⟨rfl, rfl⟩
    | cons c others =>
        have notDigit := stops c rfl
        exact ⟨List.takeWhile_cons_of_neg (by simp [notDigit]),
          List.dropWhile_cons_of_neg (by simp [notDigit])⟩
  rw [Token.splitDigits, List.span_eq_takeWhile_dropWhile,
    List.takeWhile_append_of_pos areDigits.2, List.dropWhile_append_of_pos areDigits.2, ends.1,
    ends.2, List.append_nil]

/-- The whole part of a number is split off up to what stops it. -/
theorem wholePart_append {whole rest : List Char} (isWhole : IsWhole whole)
    (stops : StopsDigits rest) (isLast : Bool) :
    Token.wholePart (whole ++ rest) isLast = .ok (whole, rest) := by
  obtain ⟨areDigits, noZero⟩ := isWhole
  rw [Token.wholePart, splitDigits_append areDigits stops]
  split
  · next same =>
      cases same
      exact absurd rfl areDigits.1
  · next second others _ same =>
      cases same
      exact absurd (noZero _ rfl) (List.cons_ne_nil _ _)
  · next same =>
      cases same
      rfl

/-- The fraction of a number is split off up to what stops it. -/
theorem fractionPart_append {digits : Option (List Char)} {fraction rest : List Char}
    (hasText : FractionHasText digits fraction) (stops : StopsDigits rest)
    (noPoint : ∀ behind, rest ≠ '.' :: behind) (isLast : Bool) :
    Token.fractionPart (fraction ++ rest) isLast = .ok (digits, rest) := by
  cases digits with
  | none =>
      cases hasText
      rw [List.nil_append, Token.fractionPart]
      exact noPoint
  | some digits =>
      obtain ⟨areDigits, rfl⟩ := hasText
      rw [List.cons_append, Token.fractionPart, splitDigits_append areDigits stops]
      cases digits with
      | nil => exact absurd rfl areDigits.1
      | cons c others => rfl

/-- A sign is read in front of digits. -/
theorem exponentSign_append {isNegative : Bool} {sign digits : List Char}
    (hasText : SignHasText isNegative sign) (areDigits : AreDigits digits) :
    Token.exponentSign (sign ++ digits) = (isNegative, digits) := by
  cases isNegative with
  | true =>
      cases (show sign = ['-'] from hasText)
      rfl
  | false =>
      have unsigned : sign = [] ∨ sign = ['+'] := hasText
      rcases unsigned with rfl | rfl
      · cases digits with
        | nil => exact absurd rfl areDigits.1
        | cons c others =>
            have digit := areDigits.2 c List.mem_cons_self
            rw [List.nil_append, Token.exponentSign]
            · rintro rest ⟨⟩
              exact absurd digit (by decide)
            · rintro rest ⟨⟩
              exact absurd digit (by decide)
      · rfl

/-- The exponent of a number is the last part of it. -/
theorem exponentPart_append {spelled : Option (Bool × List Char)} {exponent : List Char}
    (hasText : ExponentHasText spelled exponent) (isLast : Bool) :
    Token.exponentPart exponent isLast = .ok (spelled, []) := by
  cases spelled with
  | none =>
      cases hasText
      rfl
  | some spelled =>
      obtain ⟨isNegative, digits⟩ := spelled
      obtain ⟨areDigits, mark, sign, isMark, signHasText, rfl⟩ := hasText
      have signed := exponentSign_append signHasText areDigits
      have stops : StopsDigits [] := by simp [StopsDigits]
      have split := splitDigits_append areDigits stops
      rw [List.append_nil] at split
      cases digits with
      | nil => exact absurd rfl areDigits.1
      | cons c others =>
          rcases isMark with rfl | rfl <;>
            simp only [Token.exponentPart, signed, split]

/-- A digit is none of the characters that are no digits. -/
theorem ne_of_isDigit {c : Char} (digit : c.isDigit = true) {other : Char}
    (isOther : other.isDigit = false) : c ≠ other := by
  rintro rfl
  rw [digit] at isOther
  cases isOther

/-- An exponent starts with its mark, if there is one. -/
theorem head_exponent {spelled : Option (Bool × List Char)} {exponent : List Char}
    (hasText : ExponentHasText spelled exponent) {c : Char} (head : c ∈ exponent.head?) :
    c = 'e' ∨ c = 'E' := by
  cases spelled with
  | none =>
      cases hasText
      cases head
  | some spelled =>
      obtain ⟨_, mark, sign, isMark, _, rfl⟩ := hasText
      cases head
      exact isMark

/-- An exponent, or its absence, stops digits. -/
theorem stopsDigits_exponent {spelled : Option (Bool × List Char)} {exponent : List Char}
    (hasText : ExponentHasText spelled exponent) : StopsDigits exponent := by
  intro c head
  rcases head_exponent hasText head with rfl | rfl <;> rfl

/-- A fraction stops digits, and without one what comes behind does. -/
theorem stopsDigits_fraction {digits : Option (List Char)} {fraction rest : List Char}
    (hasText : FractionHasText digits fraction) (stops : StopsDigits rest) :
    StopsDigits (fraction ++ rest) := by
  cases digits with
  | none =>
      cases hasText
      exact stops
  | some digits =>
      obtain ⟨_, rfl⟩ := hasText
      rintro c ⟨⟩
      rfl

/-- **A number literal is read** from its text. -/
theorem numberLiteral_eq_ok {literal : Number.Literal} {text : List Char}
    (hasText : LiteralHasText literal text) (isLast : Bool) :
    Token.numberLiteral text isLast = .ok (literal, []) := by
  obtain ⟨isWhole, fraction, exponent, fractionHasText, exponentHasText, rfl⟩ := hasText
  have stopsExponent := stopsDigits_exponent exponentHasText
  have stopsFraction := stopsDigits_fraction fractionHasText stopsExponent
  have noPoint : ∀ behind, exponent ≠ '.' :: behind := by
    rintro behind rfl
    rcases head_exponent exponentHasText rfl with isE | isE <;> cases isE
  have whole := wholePart_append isWhole stopsFraction isLast
  have fractionRead := fractionPart_append fractionHasText stopsExponent noPoint isLast
  have exponentRead := exponentPart_append exponentHasText isLast
  cases negative : literal.isNegative with
  | true =>
      rw [if_pos rfl, List.singleton_append, Token.numberLiteral]
      simp only [whole, fractionRead, exponentRead, ok_bind]
      rw [← negative]
      rfl
  | false =>
      -- the text starts with a digit and with no minus sign
      have unsigned : ∀ rest, literal.whole ++ (fraction ++ exponent) ≠ '-' :: rest := by
        obtain ⟨areDigits, _⟩ := isWhole
        intro rest same
        cases shape : literal.whole with
        | nil => exact areDigits.1 shape
        | cons c others =>
            have digit := areDigits.2 c (by rw [shape]; exact List.mem_cons_self)
            rw [shape] at same
            exact ne_of_isDigit digit rfl (List.cons.inj same).1
      rw [if_neg Bool.false_ne_true, List.nil_append, Token.numberLiteral]
      · simp only [whole, fractionRead, exponentRead, ok_bind]
        rw [← negative]
        rfl
      · exact unsigned

/-- All characters of a number belong to its run. -/
theorem classify_of_mem_literal {literal : Number.Literal} {text : List Char}
    (hasText : LiteralHasText literal text) {c : Char} (held : c ∈ text) :
    classify c = .plain := by
  obtain ⟨isWhole, fraction, exponent, fractionHasText, exponentHasText, rfl⟩ := hasText
  -- the character stands in the sign, the whole part, the fraction or the exponent
  rcases List.mem_append.mp held with sign | unsigned
  · split at sign
    · cases List.mem_singleton.mp sign
      rfl
    · cases sign
  rcases List.mem_append.mp unsigned with inWhole | behind
  · exact classify_of_isDigit (isWhole.1.2 c inWhole)
  rcases List.mem_append.mp behind with inFraction | inExponent
  · cases digits : literal.fraction with
    | none =>
        rw [digits] at fractionHasText
        cases fractionHasText
        cases inFraction
    | some digits' =>
        rw [digits] at fractionHasText
        obtain ⟨areDigits, rfl⟩ := fractionHasText
        rcases List.mem_cons.mp inFraction with rfl | inDigits
        · rfl
        · exact classify_of_isDigit (areDigits.2 c inDigits)
  · cases spelled : literal.exponent with
    | none =>
        rw [spelled] at exponentHasText
        cases exponentHasText
        cases inExponent
    | some spelled' =>
        obtain ⟨isNegative, digits⟩ := spelled'
        rw [spelled] at exponentHasText
        obtain ⟨areDigits, mark, sign, isMark, signHasText, rfl⟩ := exponentHasText
        rcases List.mem_cons.mp inExponent with rfl | inSigned
        · rcases isMark with rfl | rfl <;> rfl
        rcases List.mem_append.mp inSigned with inSign | inDigits
        · cases isNegative with
          | true =>
              cases (show sign = ['-'] from signHasText)
              cases List.mem_singleton.mp inSign
              rfl
          | false =>
              rcases (show sign = [] ∨ sign = ['+'] from signHasText) with rfl | rfl
              · cases inSign
              · cases List.mem_singleton.mp inSign
                rfl
        · exact classify_of_isDigit (areDigits.2 c inDigits)

/-- A number starts with a minus sign or a digit. -/
theorem exists_head_literal {literal : Number.Literal} {text : List Char}
    (hasText : LiteralHasText literal text) :
    ∃ first rest, text = first :: rest ∧ (first = '-' ∨ first.isDigit = true) := by
  obtain ⟨⟨areDigits, _⟩, fraction, exponent, _, _, rfl⟩ := hasText
  cases negative : literal.isNegative with
  | true => exact ⟨_, _, rfl, .inl rfl⟩
  | false =>
      cases shape : literal.whole with
      | nil => exact absurd shape areDigits.1
      | cons c others =>
          refine ⟨c, _, rfl, .inr (areDigits.2 c ?_)⟩
          rw [shape]
          exact List.mem_cons_self

/-- The run of a number is one token. -/
theorem ofRun_literal {literal : Number.Literal} {text : List Char}
    (hasText : LiteralHasText literal text) (isLast : Bool) :
    ofRun text isLast = [.number literal.number?] := by
  have reads := numberLiteral_eq_ok hasText isLast
  obtain ⟨first, rest, rfl, starts⟩ := exists_head_literal hasText
  have notWord : first ≠ 'n' ∧ first ≠ 't' ∧ first ≠ 'f' := by
    rcases starts with rfl | digit
    · decide
    · exact ⟨ne_of_isDigit digit rfl, ne_of_isDigit digit rfl, ne_of_isDigit digit rfl⟩
  rw [ofRun, if_pos starts, reads]
  · rfl
  · exact notWord.1
  · exact notWord.2.1
  · exact notWord.2.2

/-! ## (3) Quoted texts -/

/-- A hexadecimal digit is no quote and no backslash. -/
theorem ne_of_hexValue? {c : Char} {value : Nat} (digit : Piece.hexValue? c = some value) :
    c ≠ '"' ∧ c ≠ '\\' := by
  constructor <;> (rintro rfl; cases digit)

/-- The four digits of a unit are no quotes and no backslashes. -/
theorem ne_of_hexFour? {first second third fourth : Char} {value : Nat}
    (digits : Piece.hexFour? first second third fourth = some value) :
    ∀ c ∈ [first, second, third, fourth], c ≠ '"' ∧ c ≠ '\\' := by
  simp only [Piece.hexFour?, Option.bind_eq_bind, Option.bind_eq_some_iff] at digits
  obtain ⟨_, isFirst, _, isSecond, _, isThird, _, isFourth, _⟩ := digits
  simp only [List.mem_cons, List.not_mem_nil, or_false]
  rintro c (rfl | rfl | rfl | rfl)
  exacts [ne_of_hexValue? isFirst, ne_of_hexValue? isSecond, ne_of_hexValue? isThird,
    ne_of_hexValue? isFourth]

/-- A character that is no quote and no backslash leaves the scan in its quoted text. -/
theorem scanFrom_quoted {c : Char} (noQuote : c ≠ '"') (noBackslash : c ≠ '\\')
    (rest : List Char) :
    scanFrom (.quoted false) (c :: rest) = scanFrom (.quoted false) rest := by
  rw [scanFrom, if_neg noQuote, beq_false_of_ne noBackslash]

/-- A unit leaves the scan in its quoted text. -/
theorem scanFrom_unit {first second third fourth : Char} {value : Nat}
    (digits : Piece.hexFour? first second third fourth = some value) (rest : List Char) :
    scanFrom (.quoted false) ('\\' :: 'u' :: first :: second :: third :: fourth :: rest) =
      scanFrom (.quoted false) rest := by
  have harmless := ne_of_hexFour? digits
  have escaped : scanFrom (.quoted false)
      ('\\' :: 'u' :: first :: second :: third :: fourth :: rest) =
      scanFrom (.quoted false) (first :: second :: third :: fourth :: rest) := rfl
  rw [escaped, scanFrom_quoted (harmless first (by simp)).1 (harmless first (by simp)).2,
    scanFrom_quoted (harmless second (by simp)).1 (harmless second (by simp)).2,
    scanFrom_quoted (harmless third (by simp)).1 (harmless third (by simp)).2,
    scanFrom_quoted (harmless fourth (by simp)).1 (harmless fourth (by simp)).2]

/-- An escape of four hexadecimal digits is scanned as one code unit. -/
theorem scan_unit {first second third fourth : Char} {value : Nat}
    (digits : Piece.hexFour? first second third fourth = some value) (rest : List Char) :
    Piece.scan ('\\' :: 'u' :: first :: second :: third :: fourth :: rest) =
      .unit value :: Piece.scan rest := by
  rw [Piece.scan, digits]

/-- **Pieces spell a character**: they are what its text is cut into, they are put together to it,
and the scan goes on behind them. -/
structure SpellChar (c : Char) (here : List Char) (pieces : List Piece) : Prop where
  /-- The text of the character is cut into the pieces. -/
  scan_eq : ∀ rest, Piece.scan (here ++ rest) = pieces ++ Piece.scan rest
  /-- The pieces are put together to the character. -/
  decode_eq : ∀ more, Piece.decode (pieces ++ more) = (Piece.decode more).map (c :: ·)
  /-- The text of the character does not close the quoted text. -/
  scanFrom_eq : ∀ rest, scanFrom (.quoted false) (here ++ rest) = scanFrom (.quoted false) rest

/-- Every text of a character is scanned as pieces that spell the character. -/
theorem exists_spellChar {c : Char} {here : List Char} (hasText : CharHasText c here) :
    ∃ pieces, SpellChar c here pieces := by
  cases hasText with
  | plain printable noQuote noBackslash =>
      refine ⟨[.char c], fun rest => ?_, fun more => rfl, scanFrom_quoted noQuote noBackslash⟩
      have noControl : ¬c.toNat < 0x20 := Nat.not_lt.mpr printable
      show Piece.scan (c :: rest) = .char c :: Piece.scan rest
      -- no other equation of the scan starts with this character
      rw [Piece.scan, if_neg noControl]
      · exact noQuote
      · exact fun same _ => noBackslash same
      · exact fun _ _ _ _ _ same _ => noBackslash same
      · exact fun _ same _ => noBackslash same
      · exact fun _ _ same _ => noBackslash same
  | @short _ letter named =>
      have notUnit : letter ≠ 'u' := by
        rintro rfl
        cases named
      refine ⟨[.char c], fun rest => ?_, fun more => rfl, fun rest => rfl⟩
      show Piece.scan ('\\' :: letter :: rest) = .char c :: Piece.scan rest
      rw [Piece.scan, named]
      · exact fun _ _ _ _ _ same _ => notUnit same
      · exact notUnit
  | @unit first second third fourth value digits notHigh notLow =>
      refine ⟨[.unit value], scan_unit digits, fun more => ?_, scanFrom_unit digits⟩
      show Piece.decode (.unit value :: more) = _
      rw [Piece.decode.eq_def]
      simp only [notLow, notHigh]
      rfl
  | @pair first second third fourth first' second' third' fourth' high low highDigits isHigh
      lowDigits isLow =>
      have notLow : Piece.isLowSurrogate high = false := by
        simp [Piece.isHighSurrogate, Piece.isLowSurrogate] at isHigh ⊢
        omega
      refine ⟨[.unit high, .unit low], fun rest => ?_, fun more => ?_, fun rest => ?_⟩
      · -- two escapes are scanned one after the other
        exact (scan_unit highDigits _).trans (congrArg (_ :: ·) (scan_unit lowDigits rest))
      · show Piece.decode (.unit high :: .unit low :: more) = _
        rw [Piece.decode, notLow, isHigh]
        simp only [isLow]
        rfl
      · exact (scanFrom_unit highDigits _).trans (scanFrom_unit lowDigits rest)

/-- Characters in a quoted text are cut into pieces that are put together to them. -/
theorem exists_pieces {value inside : List Char} (hasText : CharsHaveText value inside) :
    ∃ pieces, Piece.decode pieces = .ok value ∧
      (∀ behind, Piece.scan (inside ++ '"' :: behind) = pieces) ∧
      ∀ behind, scanFrom (.quoted false) (inside ++ '"' :: behind) = scanFrom (.run []) behind := by
  induction value generalizing inside with
  | nil =>
      cases hasText
      exact ⟨[], rfl, fun _ => rfl, fun _ => rfl⟩
  | cons c rest induction =>
      obtain ⟨here, others, charHasText, othersHaveText, rfl⟩ := hasText
      obtain ⟨pieces, spells⟩ := exists_spellChar charHasText
      obtain ⟨more, decodes, scans, closes⟩ := induction othersHaveText
      refine ⟨pieces ++ more, ?_, fun behind => ?_, fun behind => ?_⟩
      · rw [spells.decode_eq, decodes]
        rfl
      · rw [List.append_assoc, spells.scan_eq, scans]
      · rw [List.append_assoc, spells.scanFrom_eq, closes]

/-- **A quoted text is one token**, and its pieces spell the text. -/
theorem scan_string {value : String} {text : List Char} (hasText : StringHasText value text) :
    ∃ pieces, Piece.text pieces = .ok value ∧
      ∀ behind, scanFrom (.run []) (text ++ behind) =
        .string pieces :: scanFrom (.run []) behind := by
  obtain ⟨inside, charsHaveText, rfl⟩ := hasText
  obtain ⟨pieces, decodes, scans, closes⟩ := exists_pieces charsHaveText
  refine ⟨pieces, ?_, fun behind => ?_⟩
  · rw [Piece.text, decodes]
    exact congrArg Except.ok String.ofList_toList
  · have opens : scanFrom (.run []) ('"' :: (inside ++ '"' :: behind)) =
        .string (Piece.scan (inside ++ '"' :: behind)) ::
          scanFrom (.quoted false) (inside ++ '"' :: behind) := rfl
    rw [List.cons_append, List.append_assoc, List.singleton_append, opens, scans, closes]

end WireSchema.Json
