import RepoOrbit.Script.Lexicon

/-!
# Tokens that depend on context

Some tokens of scripts are not seen in the text alone: the semicolon that a line
end stands for, the plain text of a template or of markup, and the question mark
of a conditional as against that of an optional part. They are read here, told
which tokens the parse could take (`scanJavaScript`, `scanTypeScript`).

Whether a line end may stand for a semicolon depends on what comes next
(`semicolonBefore`): nothing is put before a character that goes on with an
expression.
-/

namespace RepoOrbit.Script

open RepoOrbit.Grammar (ScannedToken)

/-- A place in the text: how much was passed, and what is left. -/
structure Cursor where
  passed : Nat
  text : List Char

namespace Cursor

/-- The next character, or NUL at the end. -/
def peek (c : Cursor) : Char :=
  match c.text with
  | [] => '\x00'
  | x :: _ => x

/-- Go past one character. -/
def next (c : Cursor) : Cursor :=
  match c.text with
  | [] => c
  | _ :: rest => ⟨c.passed + 1, rest⟩

/-- Go past the leading characters with property `p`. -/
def skipWhile (p : Char → Bool) (c : Cursor) : Cursor :=
  let n := (c.text.takeWhile p).length
  ⟨c.passed + n, c.text.drop n⟩

/-- Whether nothing is left, a NUL counting as the end. -/
def atEnd (c : Cursor) : Bool := c.peek = '\x00'

end Cursor

/-- What counts as white space where a semicolon may be left out: no-break
spaces do not. -/
def isBlank (c : Char) : Bool :=
  let n := c.toNat
  (9 ≤ n && n ≤ 13) || n == 32 || n == 0x1680 || (0x2000 ≤ n && n ≤ 0x2006) ||
    (0x2008 ≤ n && n ≤ 0x200A) || n == 0x2028 || n == 0x2029 || n == 0x205F || n == 0x3000

/-- A letter, of any alphabet. -/
def isLetter (c : Char) : Bool := c.isAlpha || (c.toNat ≥ 0xAA && isNameChar c)

/-- Whether a line feed or line separator. -/
def isLineEnd (c : Char) : Bool := c = '\n' || isLineSeparator c

/-- The plain text of a template, up to an escape, a substitution or its end. -/
def templateText : Nat → Cursor → Option Nat
  | 0, _ => none
  | fuel + 1, c =>
    let found := if c.passed > 0 then some c.passed else none
    match c.text with
    | [] => none
    | x :: rest =>
      if x = '\x60' || x = '\\' then found
      else if x = '\x00' then none
      else if x = '$' then
        match rest with
        | y :: _ => if y = '\x7b' then found else templateText fuel c.next
        | [] => none
      else templateText fuel c.next

/-- The text of markup, up to a tag, a brace or a reference; white space that
follows a line end does not make text. -/
def markupBody : Nat → (saw atNewline : Bool) → Cursor → Option Nat
  | 0, _, _, _ => none
  | fuel + 1, saw, atNewline, c =>
    let x := c.peek
    if c.atEnd || x = '<' || x = '>' || x = '\x7b' || x = '\x7d' || x = '&' then
      if saw then some c.passed else none
    else if x = '\n' then markupBody fuel saw true c.next
    else
      let atNewline := atNewline && isBlank x
      markupBody fuel (saw || !atNewline) atNewline c.next

/-- The end of a comment line: a line end or the end of the text. -/
def skipLine (stop : Char → Bool) (c : Cursor) : Cursor :=
  c.skipWhile fun x => x != '\x00' && !stop x

/-- A markup comment mark and the line after it. -/
def markupComment (c : Cursor) : Option ScannedToken :=
  let c := c.skipWhile fun x => isBlank x || isLineSeparator x
  let mark := if "<!--".toList.isPrefixOf c.text then 4 else if "-->".toList.isPrefixOf c.text then 3 else 0
  if mark = 0 then none
  else
    let tail := skipLine isLineEnd ⟨c.passed + mark, c.text.drop mark⟩
    some ⟨"html_comment", c.passed, tail.passed - c.passed⟩

/-- What a scan over white space and comments finds. -/
inductive Gap where
  /-- Something that is neither. -/
  | broken
  /-- A comment without a line end. -/
  | sameLine
  /-- The end of white space and comments. -/
  | done
  deriving DecidableEq

/-- The answer to whether a semicolon stands here: the answer, the place the
scan stopped at and whether it went past a comment. -/
structure SemicolonScan where
  answer : Bool
  place : Cursor
  sawComment : Bool

/-- Whether a line end before this place stands for a semicolon. `blocked` are
the characters that go on with what is before; `dot` decides at a point. -/
def semicolonBefore (blocked : Char → Bool) (pointGoesOn : Bool) (c : Cursor) : Bool × Cursor :=
  let x := c.peek
  if blocked x then (false, c)
  else if x = '.' then
    if pointGoesOn then (false, c)
    else (c.next.peek.isDigit, c.next)
  else if x = '+' then (c.next.peek = '+', c.next)
  else if x = '-' then (c.next.peek = '-', c.next)
  else if x = '!' then (c.next.peek != '=', c.next)
  else if x = 'i' then
    let c := c.next
    if c.peek != 'n' then (true, c)
    else
      let c := c.next
      if !isLetter c.peek then (false, c)
      else
        let tail := "stanceof".toList
        if tail.isPrefixOf c.text then
          let c : Cursor := ⟨c.passed + 8, c.text.drop 8⟩
          (isLetter c.peek, c)
        else
          let n := ((tail.zip c.text).takeWhile fun (a, b) => a == b).length
          (true, ⟨c.passed + n, c.text.drop n⟩)
  else (true, c)

/-- A block comment, its opening already passed: the place after it, and whether
a line ended in it. -/
def skipBlock : Nat → Bool → Cursor → Cursor × Bool × Bool
  | 0, sawLine, c => (c, sawLine, false)
  | fuel + 1, sawLine, c =>
    if c.atEnd then (c, sawLine, false)
    else if c.peek = '*' then
      let c := c.next
      if c.peek = '/' then (c.next, sawLine, true) else skipBlock fuel sawLine c
    else skipBlock fuel (sawLine || isLineEnd c.peek) c.next

namespace JavaScript

/-- Go over white space and comments. Without `consume` the scan stops after a
block comment that no other comment follows. -/
def skipGap (consume : Bool) : Nat → Bool → Bool → Cursor → Gap × Cursor × Bool
  | 0, _, sawComment, c => (.broken, c, sawComment)
  | fuel + 1, sawLine, sawComment, c =>
    let c := c.skipWhile isBlank
    if c.peek != '/' then (.done, c, sawComment)
    else
      let c := c.next
      if c.peek = '/' then skipGap consume fuel sawLine true (skipLine isLineEnd c.next)
      else if c.peek = '*' then
        let (c, sawLine, closed) := skipBlock c.text.length sawLine c.next
        if closed && c.peek != '/' && !consume then
          (if sawLine then .done else .sameLine, c, true)
        else skipGap consume fuel sawLine (sawComment || closed) c
      else (.broken, c, sawComment)

/-- The characters before which a line end is not a semicolon. -/
def goesOn (x : Char) : Bool := "\x60,:;*%><=[(?^|&/".toList.contains x

/-- Whether a semicolon is left out here. -/
def semicolonHere (commentEnds : Bool) : Nat → Bool → Cursor → SemicolonScan
  | 0, sawComment, c => ⟨false, c, sawComment⟩
  | fuel + 1, sawComment, c =>
    if c.atEnd then ⟨true, c, sawComment⟩
    else
      let gap : Option Gap × Cursor × Bool :=
        if c.peek = '/' then
          let (g, c, saw) := skipGap false (c.text.length + 1) false sawComment c
          (some g, c, saw)
        else (none, c, sawComment)
      match gap with
      | (some .broken, c, saw) => ⟨false, c, saw⟩
      | (g, c, saw) =>
        if g = some .done && commentEnds && c.peek != ',' && c.peek != '=' then ⟨true, c, saw⟩
        else if c.peek = '\x7d' then ⟨true, c, saw⟩
        else if isLineEnd c.peek then
          let (g, c, saw) := skipGap true (c.text.length + 1) false saw c.next
          if g = .broken then ⟨false, c, saw⟩
          else
            let (answer, c) := semicolonBefore goesOn false c
            ⟨answer, c, saw⟩
        else if !isBlank c.peek then ⟨false, c, saw⟩
        else semicolonHere commentEnds fuel saw c.next

/-- The question mark of a conditional. -/
def questionMark (c : Cursor) : Option ScannedToken :=
  let c := c.skipWhile isBlank
  if c.peek != '?' then none
  else
    let after := c.next
    if after.peek = '?' then none
    else if after.peek = '.' && !after.next.peek.isDigit then none
    else some ⟨"_ternary_qmark", c.passed, 1⟩

/-- The context-dependent reader. -/
def scan (valid : String → Bool) (text : List Char) : Option ScannedToken :=
  let start : Cursor := ⟨0, text⟩
  let fuel := text.length + 1
  if valid "_template_chars" then
    if valid "_automatic_semicolon" then none
    else (templateText fuel start).map fun n => ⟨"_template_chars", 0, n⟩
  else
    let markup := if valid "jsx_text" then markupBody fuel false false start else none
    match markup with
    | some n => some ⟨"jsx_text", 0, n⟩
    | none =>
      if valid "_automatic_semicolon" then
        let s := semicolonHere (!valid "||") fuel false start
        if s.answer then some ⟨"_automatic_semicolon", 0, 0⟩
        else if !s.sawComment && valid "_ternary_qmark" && s.place.peek = '?' then questionMark s.place
        else none
      else if valid "_ternary_qmark" then questionMark start
      else if valid "html_comment" && !valid "||" && !valid "escape_sequence" && !valid "regex_pattern" then
        markupComment start
      else none

end JavaScript

namespace TypeScript

/-- Go over white space and comments; nothing if something else begins with a
slash. -/
def skipGap : Nat → Bool → Cursor → Option Cursor × Cursor × Bool
  | 0, sawComment, c => (none, c, sawComment)
  | fuel + 1, sawComment, c =>
    let c := c.skipWhile isBlank
    if c.peek != '/' then (some c, c, sawComment)
    else
      let c := c.next
      if c.peek = '/' then skipGap fuel true (skipLine (· = '\n') c.next)
      else if c.peek = '*' then
        let (c, _, _) := skipBlock c.text.length false c.next
        skipGap fuel sawComment c
      else (none, c, sawComment)

/-- The characters before which a line end is not a semicolon. A brace goes on
with a signature; a bracket goes on where an operator could stand. -/
def goesOn (valid : String → Bool) (x : Char) : Bool :=
  "\x60,.;*%><=?^|&/:".toList.contains x ||
    (x = '\x7b' && valid "_function_signature_automatic_semicolon") ||
    ((x = '(' || x = '[') && valid "||")

/-- Whether a semicolon is left out here. -/
def semicolonHere (valid : String → Bool) : Nat → Cursor → SemicolonScan
  | 0, c => ⟨false, c, false⟩
  | fuel + 1, c =>
    if c.atEnd then ⟨true, c, false⟩
    else if c.peek = '\x7d' then
      let c := c.next.skipWhile isBlank
      ⟨if c.peek = ':' then valid "||" else true, c, false⟩
    else if !isBlank c.peek then ⟨false, c, false⟩
    else if c.peek = '\n' then
      match skipGap (c.text.length + 1) false c.next with
      | (none, c, saw) => ⟨false, c, saw⟩
      | (some c, _, saw) =>
        let (answer, c) := semicolonBefore (goesOn valid) true c
        ⟨answer, c, saw⟩
    else semicolonHere valid fuel c.next

/-- The question mark of a conditional: not that of an optional part, which a
colon, a comma or a parenthesis follows. -/
def questionMark (c : Cursor) : Option ScannedToken :=
  let c := c.skipWhile isBlank
  if c.peek != '?' then none
  else
    let after := c.next
    if after.peek = '?' || after.peek = '.' then none
    else
      let far := after.skipWhile isBlank
      if far.peek = ':' || far.peek = ')' || far.peek = ',' then none
      else if far.peek = '.' && !far.next.peek.isDigit then none
      else some ⟨"_ternary_qmark", c.passed, 1⟩

/-- The context-dependent reader. -/
def scan (valid : String → Bool) (text : List Char) : Option ScannedToken :=
  let start : Cursor := ⟨0, text⟩
  let fuel := text.length + 1
  if valid "_template_chars" then
    if valid "_automatic_semicolon" then none
    else (templateText fuel start).map fun n => ⟨"_template_chars", 0, n⟩
  else
    let markup := if valid "jsx_text" then markupBody fuel false false start else none
    match markup with
    | some n => some ⟨"jsx_text", 0, n⟩
    | none =>
      if valid "_automatic_semicolon" || valid "_function_signature_automatic_semicolon" then
        let s := semicolonHere valid fuel start
        if s.answer then some ⟨"_automatic_semicolon", 0, 0⟩
        else if !s.sawComment && valid "_ternary_qmark" && s.place.peek = '?' then questionMark s.place
        else none
      else if valid "_ternary_qmark" then questionMark start
      else if valid "html_comment" && !valid "||" && !valid "escape_sequence" && !valid "regex_pattern" then
        markupComment start
      else none

end TypeScript

end RepoOrbit.Script
