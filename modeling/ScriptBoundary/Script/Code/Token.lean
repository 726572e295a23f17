import ScriptBoundary.Script.Value
import ScriptBoundary.Decimal.Reading

/-!
# Tokens

`Token.scan` cuts a source text into tokens. White space and comments disappear, but a token
remembers whether a line ended before it, because statements may end there.

A template literal is cut into its text parts; the expressions between them are ordinary tokens.
To know which closing brace ends such an expression the scanner keeps a stack with one entry for
each open brace.

The scanner looks at no more characters than the source has: its fuel is the length of the source,
and every token takes at least one character.
-/

namespace ScriptBoundary.Script

/-- The content of a token. -/
inductive Lexeme where
  | punct (s : String)
  /-- A name or a reserved word; `escaped` if it was written with an escape. -/
  | word (name : String) (escaped : Bool)
  | number (x : Float) (legacy : Bool)
  | bigint (n : Int)
  /-- A string; `raw` if it was written without escapes. -/
  | text (t : Text) (raw : Bool)
  /-- A part of a template: its text, and whether it opens or closes the template. -/
  | template (t : Text) (opens closes : Bool)
deriving Repr, Inhabited

structure Token where
  lexeme : Lexeme
  afterLineEnd : Bool
deriving Repr, Inhabited

namespace Token

def isLineEnd (c : Char) : Bool := c == '\n' || c == '\r' || c.toNat == 0x2028 || c.toNat == 0x2029

def isBlank (c : Char) : Bool :=
  c.toNat < 0x10000 && Text.isBlank (UInt16.ofNat c.toNat) && !isLineEnd c

/-- Letters, the dollar sign and the underscore. Above ASCII the symbol and punctuation blocks are
left out and everything else counts as a letter. -/
def startsWord (c : Char) : Bool :=
  let n := c.toNat
  if n < 0x80 then c.isAlpha || c == '$' || c == '_'
  else if n < 0xC0 then n == 0xAA || n == 0xB5 || n == 0xBA
  else
    !(n == 0xD7 || n == 0xF7 || n == 0x1680 || (0x2000 ≤ n && n ≤ 0x206F) || (0x20A0 ≤ n && n ≤ 0x20FF)
      || (0x2190 ≤ n && n ≤ 0x2BFF) || (0x3000 ≤ n && n ≤ 0x3004) || (0xE000 ≤ n && n ≤ 0xF8FF)
      || n == 0xFEFF || (0xFFF0 ≤ n && n ≤ 0xFFFF) || (0x1F000 ≤ n && n ≤ 0x1FAFF))

def continuesWord (c : Char) : Bool :=
  startsWord c || c.isDigit || c.toNat == 0x200C || c.toNat == 0x200D

def hexValue? (c : Char) : Option Nat :=
  if c.isDigit then some (c.toNat - 48)
  else if 'a' ≤ c && c ≤ 'f' then some (c.toNat - 87)
  else if 'A' ≤ c && c ≤ 'F' then some (c.toNat - 55)
  else none

/-- The value of digits in a base, if all of them are digits of it. -/
def valueIn? (base : Nat) (cs : List Char) : Option Nat :=
  cs.foldl (fun acc c => acc.bind fun n => (hexValue? c).bind fun d =>
    if d < base then some (n * base + d) else none) (some 0)

/-- Digits with single underscores between them, without the underscores. -/
def separated? (cs : List Char) : Option (List Char) :=
  let ok := (cs.zip (cs.drop 1)).all fun (a, b) => !(a == '_' && b == '_')
  if ok && cs.head? != some '_' && cs.getLast? != some '_' then some (cs.filter (· != '_')) else none

/-- The rest after a line comment. -/
def skipLine (cs : List Char) : List Char := cs.dropWhile fun c => !isLineEnd c

/-- The rest after a block comment, and whether it spanned lines; `none` if it never ends. -/
def skipBlock? (spans : Bool) : List Char → Option (List Char × Bool)
  | '*' :: '/' :: rest => some (rest, spans)
  | c :: rest => skipBlock? (spans || isLineEnd c) rest
  | [] => none

/-- Skips blanks, line ends and comments; says whether a line ended. -/
def skipBlanks? : Nat → Bool → List Char → Option (List Char × Bool)
  | 0, ended, cs => some (cs, ended)
  | fuel + 1, ended, cs =>
    match cs with
    | '/' :: '/' :: rest => skipBlanks? fuel ended (skipLine rest)
    | '/' :: '*' :: rest => (skipBlock? false rest).bind fun (rest, spans) =>
        skipBlanks? fuel (ended || spans) rest
    | c :: rest =>
      if isLineEnd c then skipBlanks? fuel true rest
      else if isBlank c then skipBlanks? fuel ended rest
      else some (cs, ended)
    | [] => some ([], ended)

/-- The four digits or the braced digits of a Unicode escape, after its letter `u`. -/
def unicodeEscape? (cs : List Char) : Option (Nat × List Char) :=
  match cs with
  | '{' :: rest =>
    let digits := rest.takeWhile (· != '}')
    match rest.dropWhile (· != '}'), valueIn? 16 digits with
    | _ :: rest, some n => if digits.isEmpty || n > 0x10FFFF then none else some (n, rest)
    | _, _ => none
  | a :: b :: c :: d :: rest => (valueIn? 16 [a, b, c, d]).map fun n => (n, rest)
  | _ => none

/-- The units of a code point, surrogates included. -/
def unitsOf (n : Nat) : List UInt16 :=
  if n < 0x10000 then [UInt16.ofNat n] else Utf16.encodeChar (Char.ofNat n)

/-- The end of a legacy octal escape that began with `c`: up to three digits below 256. -/
def octalEscape (c : Char) (cs : List Char) : Nat × List Char :=
  let isOctal (c : Char) : Bool := '0' ≤ c && c ≤ '7'
  let first := c.toNat - 48
  match cs with
  | d :: rest =>
    if !isOctal d then (first, cs)
    else
      let two := first * 8 + (d.toNat - 48)
      match rest with
      | e :: rest' => if isOctal e && first < 4 then (two * 8 + (e.toNat - 48), rest') else (two, rest)
      | [] => (two, [])
  | [] => (first, [])

/-- The units an escape stands for, after its backslash. -/
def escape? (inTemplate : Bool) (cs : List Char) : Option (List UInt16 × List Char) :=
  match cs with
  | [] => none
  | '\r' :: '\n' :: rest => some ([], rest)
  | c :: rest =>
    if isLineEnd c then some ([], rest)
    else match c with
      | 'n' => some ([10], rest)
      | 't' => some ([9], rest)
      | 'r' => some ([13], rest)
      | 'b' => some ([8], rest)
      | 'v' => some ([11], rest)
      | 'f' => some ([12], rest)
      | 'x' => match rest with
        | a :: b :: rest => (valueIn? 16 [a, b]).map fun n => (unitsOf n, rest)
        | _ => none
      | 'u' => (unicodeEscape? rest).map fun (n, rest) => (unitsOf n, rest)
      | _ =>
        if '0' ≤ c && c ≤ '7' then
          if inTemplate then
            if c == '0' && !(rest.head?.any Char.isDigit) then some ([0], rest) else none
          else
            let (n, rest) := octalEscape c rest
            some (unitsOf n, rest)
        else some (Utf16.encodeChar c, rest)

/-- The inside of a string up to its closing quote. -/
def string? (quote : Char) : Nat → Array UInt16 → Bool → List Char → Option (Lexeme × List Char)
  | 0, _, _, _ => none
  | fuel + 1, out, raw, cs =>
    match cs with
    | [] => none
    | c :: rest =>
      if c == quote then some (.text ⟨out⟩ raw, rest)
      else if c == '\\' then
        (escape? false rest).bind fun (us, rest) => string? quote fuel (out ++ us) false rest
      else if c == '\n' || c == '\r' then none
      else string? quote fuel (out ++ Utf16.encodeChar c) raw rest

/-- The inside of a template up to its end or to the next expression. -/
def template? (opens : Bool) : Nat → Array UInt16 → List Char → Option (Lexeme × List Char)
  | 0, _, _ => none
  | fuel + 1, out, cs =>
    match cs with
    | [] => none
    | '$' :: '{' :: rest => some (.template ⟨out⟩ opens false, rest)
    | '\r' :: '\n' :: rest => template? opens fuel (out.push 10) rest
    | c :: rest =>
      if c == '\x60' then some (.template ⟨out⟩ opens true, rest)
      else if c == '\\' then
        (escape? true rest).bind fun (us, rest) => template? opens fuel (out ++ us) rest
      else if c == '\r' then template? opens fuel (out.push 10) rest
      else template? opens fuel (out ++ Utf16.encodeChar c) rest

/-- A word, escapes in it resolved. -/
def word? : Nat → List Char → Bool → List Char → Option (Lexeme × List Char)
  | 0, _, _, _ => none
  | fuel + 1, out, escaped, cs =>
    match cs with
    | '\\' :: 'u' :: rest =>
      (unicodeEscape? rest).bind fun (n, rest) =>
        let c := Char.ofNat n
        let fits := if out.isEmpty then startsWord c else continuesWord c
        if fits then word? fuel (c :: out) true rest else none
    | c :: rest =>
      if (if out.isEmpty then startsWord c else continuesWord c) then
        word? fuel (c :: out) escaped rest
      else if out.isEmpty then none else some (.word (String.ofList out.reverse) escaped, cs)
    | [] => if out.isEmpty then none else some (.word (String.ofList out.reverse) escaped, [])

/-- What may not follow a number directly. -/
def clear (cs : List Char) : Bool := !(cs.head?.any fun c => startsWord c || c.isDigit || c == '\\')

/-- A number in another base, after its two-character mark. -/
def radix? (base : Nat) (cs : List Char) : Option (Lexeme × List Char) :=
  let isPart (c : Char) : Bool := c.isAlphanum && c != 'n' || c == '_'
  let rest := cs.dropWhile isPart
  (separated? (cs.takeWhile isPart)).bind fun digits =>
    if digits.isEmpty then none
    else (valueIn? base digits).bind fun n =>
      match rest with
      | 'n' :: rest => if clear rest then some (.bigint n, rest) else none
      | rest => if clear rest then some (.number (Float.ofNat n) false, rest) else none

/-- A decimal number, or an octal one with a leading zero. -/
def decimal? (cs : List Char) : Option (Lexeme × List Char) :=
  let isPart (c : Char) : Bool := c.isDigit || c == '_'
  let wholeRaw := cs.takeWhile isPart
  let rest := cs.dropWhile isPart
  (if wholeRaw.isEmpty then some [] else separated? wholeRaw).bind fun whole =>
    let leadingZero := whole.length > 1 && whole.head? == some '0'
    if leadingZero && whole.all fun c => c < '8' then
      (valueIn? 8 whole).bind fun n =>
        if clear rest then some (.number (Float.ofNat n) true, rest) else none
    else match rest with
      | 'n' :: rest =>
        if clear rest && !leadingZero then some (.bigint (Decimal.digitsValue whole), rest) else none
      | _ =>
        let (fractionRaw, rest) := match rest with
          | '.' :: r => (r.takeWhile isPart, r.dropWhile isPart)
          | r => ([], r)
        (if fractionRaw.isEmpty then some [] else separated? fractionRaw).bind fun fraction =>
          (Decimal.exponentPart? rest).bind fun (e, rest) =>
            let x := Decimal.nearest (Decimal.digitsValue (whole ++ fraction)) (e - (fraction.length : Int))
            if clear rest then some (.number x leadingZero, rest) else none

def number? (cs : List Char) : Option (Lexeme × List Char) :=
  match cs with
  | '0' :: m :: rest =>
    if m == 'x' || m == 'X' then radix? 16 rest
    else if m == 'o' || m == 'O' then radix? 8 rest
    else if m == 'b' || m == 'B' then radix? 2 rest
    else decimal? cs
  | _ => decimal? cs

/-- The punctuators, longest first. -/
def puncts : List (List Char) :=
  [">>>=", "...", "===", "!==", "**=", "<<=", ">>=", ">>>", "&&=", "||=", "??=", "=>", "==", "!=",
   "<=", ">=", "&&", "||", "??", "?.", "++", "--", "+=", "-=", "*=", "/=", "%=", "&=", "|=", "^=",
   "<<", ">>", "**", "\x7b", "\x7d", "(", ")", "[", "]", ".", ";", ",", "<", ">", "+", "-", "*", "/",
   "%", "&", "|", "^", "!", "~", "?", ":", "="].map String.toList

def punct? (cs : List Char) : Option (String × List Char) :=
  match cs with
  | '?' :: '.' :: d :: rest =>
    if d.isDigit then some ("?", '.' :: d :: rest) else some ("?.", d :: rest)
  | _ => (puncts.find? fun p => p.isPrefixOf cs).map fun p => (String.ofList p, cs.drop p.length)

/-- The next token. `braces` has an entry for each open brace, `true` where it opened an
expression inside a template. -/
def next? (fuel : Nat) (braces : List Bool) (cs : List Char) :
    Option (Lexeme × List Char × List Bool) :=
  match cs with
  | [] => none
  | c :: rest =>
    if c == '\x22' || c == '\x27' then
      (string? c fuel #[] true rest).map fun (l, rest) => (l, rest, braces)
    else if c == '\x60' then
      (template? true fuel #[] rest).map fun (l, rest) =>
        (l, rest, match l with | .template _ _ false => true :: braces | _ => braces)
    else if c == '}' && braces.head? == some true then
      (template? false fuel #[] rest).map fun (l, rest) =>
        (l, rest, match l with | .template _ _ false => braces | _ => braces.tail)
    else if c.isDigit || (c == '.' && rest.head?.any Char.isDigit) then
      (number? cs).map fun (l, rest) => (l, rest, braces)
    else if startsWord c || c == '\\' then
      (word? (fuel + 1) [] false cs).map fun (l, rest) => (l, rest, braces)
    else (punct? cs).map fun (p, rest) =>
      let braces := if c == '{' then false :: braces else if c == '}' then braces.tail else braces
      (.punct p, rest, braces)

/-- The tokens of the rest of a source, after those already found. -/
def scanOnto : Nat → Array Token → List Bool → List Char → Option (Array Token)
  | 0, _, _, _ => none
  | fuel + 1, out, braces, cs =>
    (skipBlanks? (cs.length + 1) false cs).bind fun (cs, ended) =>
      if cs.isEmpty then some out
      else (next? (cs.length + 1) braces cs).bind fun (l, rest, braces) =>
        scanOnto fuel (out.push ⟨l, ended⟩) braces rest

/-- The tokens of a source text, or `none` if it has a character that begins none. -/
def scan (source : List Char) : Option (Array Token) :=
  scanOnto (source.length + 2) #[] [] source

end Token

end ScriptBoundary.Script
