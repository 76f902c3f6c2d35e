import SpanTags.Yaml.Token

namespace SpanTags

namespace Yaml

-- A token that turns out to be a key if a colon follows it: how many tokens stand before
-- it, and where it begins. It is required if nothing else can stand there.
structure PossibleKey where
  tokens : Nat
  index : Nat
  line : Nat
  column : Nat
  required : Bool

-- The tokens so far, the last one first, and what decides how the text goes on: the
-- depth of brackets, the column of the innermost block and those of the blocks around
-- it, whether a key may begin here, and the possible keys by depth of brackets.
structure Lexer where
  place : Position
  tokens : List Token
  flowLevel : Nat
  indent : Int
  outerIndents : List Int
  allowsKey : Bool
  possibleKeys : List (Nat × PossibleKey)

namespace Lexer

-- A byte order mark at the very start is no part of the text.
def start (document : Text) : Lexer :=
  let place := Position.start document
  let place := if place.peek = some ('\uFEFF' : CodePoint) then place.advance 1 else place
  ⟨place, [], 0, -1, [], true, []⟩

def inFlow (lx : Lexer) : Bool :=
  lx.flowLevel ≠ 0

def emit (token : Token) (lx : Lexer) : Lexer :=
  { lx with tokens := token :: lx.tokens }

def advance (n : Nat) (lx : Lexer) : Lexer :=
  { lx with place := lx.place.advance n }

-- Spaces, comments and line ends up to the next token, with their number, and whether
-- there was a line end.
def gapFrom : Bool → Text → Nat × Bool
  | _, [] => (0, false)
  | inComment, c :: rest =>
    if isBreak c then ((gapFrom false rest).1 + 1, true)
    else if inComment || c = ' ' then
      let (width, broke) := gapFrom inComment rest
      (width + 1, broke)
    else if c = '#' then
      let (width, broke) := gapFrom true rest
      (width + 1, broke)
    else (0, false)

def skipGap (lx : Lexer) : Lexer :=
  let (width, broke) := gapFrom false lx.place.rest
  { lx.advance width with allowsKey := lx.allowsKey || (broke && !lx.inFlow) }

-- A possible key ends on its own line and within 1024 code points.
def isStale (place : Position) (key : PossibleKey) : Bool :=
  key.line ≠ place.line || place.index > key.index + 1024

def dropStale (lx : Lexer) : Except Fault Lexer :=
  if lx.possibleKeys.any fun (_, key) => isStale lx.place key && key.required then
    .error .malformed
  else
    .ok { lx with
      possibleKeys := lx.possibleKeys.filter fun (_, key) => !isStale lx.place key }

def dropKey (lx : Lexer) : Except Fault Lexer :=
  match lx.possibleKeys.lookup lx.flowLevel with
  | none => .ok lx
  | some key =>
    if key.required then .error .malformed
    else .ok { lx with possibleKeys := lx.possibleKeys.filter (·.1 ≠ lx.flowLevel) }

def saveKey (lx : Lexer) : Except Fault Lexer :=
  if lx.allowsKey then do
    let required := !lx.inFlow && lx.indent = lx.place.column
    let lx ← lx.dropKey
    let key : PossibleKey :=
      ⟨lx.tokens.length, lx.place.index, lx.place.line, lx.place.column, required⟩
    return { lx with possibleKeys := (lx.flowLevel, key) :: lx.possibleKeys }
  else .ok lx

-- Closes the blocks that are indented deeper than the column.
def closeBlocks (column : Int) : Int → List Int → List Token → Int × List Int × List Token
  | indent, [], tokens => (indent, [], tokens)
  | indent, outer :: more, tokens =>
    if column < indent then closeBlocks column outer more (.blockEnd :: tokens)
    else (indent, outer :: more, tokens)

def unwind (column : Int) (lx : Lexer) : Lexer :=
  if lx.inFlow then lx
  else
    let (indent, outerIndents, tokens) := closeBlocks column lx.indent lx.outerIndents lx.tokens
    { lx with indent, outerIndents, tokens }

-- Opens a block at the column unless one is open there; its first token goes before the
-- token with the given number.
def openBlock (column : Nat) (token : Token) (before : Nat) (lx : Lexer) : Lexer :=
  if lx.indent < column then
    { lx with
      indent := column
      outerIndents := lx.indent :: lx.outerIndents
      tokens := lx.tokens.insertIdx (lx.tokens.length - before) token }
  else lx

def directive (lx : Lexer) : Except Fault Lexer := do
  let lx ← (lx.unwind (-1)).dropKey
  let (token, place) ← Token.readDirective lx.place
  return { lx.emit token with place, allowsKey := false }

def documentMark (token : Token) (lx : Lexer) : Except Fault Lexer := do
  let lx ← (lx.unwind (-1)).dropKey
  return { (lx.emit token).advance 3 with allowsKey := false }

def flowStart (token : Token) (lx : Lexer) : Except Fault Lexer := do
  let lx ← lx.saveKey
  return { (lx.emit token).advance 1 with flowLevel := lx.flowLevel + 1, allowsKey := true }

def flowEnd (token : Token) (lx : Lexer) : Except Fault Lexer := do
  let lx ← lx.dropKey
  if lx.flowLevel = 0 then throw .malformed
  return { (lx.emit token).advance 1 with flowLevel := lx.flowLevel - 1, allowsKey := false }

def flowEntry (lx : Lexer) : Except Fault Lexer := do
  let lx ← lx.dropKey
  return { (lx.emit .flowEntry).advance 1 with allowsKey := true }

-- Outside brackets an entry, a key or a value can begin only where a key can.
def needsKey (lx : Lexer) : Except Fault Unit :=
  if lx.inFlow || lx.allowsKey then .ok () else .error .malformed

def inBlock (token : Token) (lx : Lexer) : Lexer :=
  if lx.inFlow then lx else lx.openBlock lx.place.column token lx.tokens.length

def blockEntry (lx : Lexer) : Except Fault Lexer := do
  lx.needsKey
  let lx ← (lx.inBlock .blockSequenceStart).dropKey
  return { (lx.emit .blockEntry).advance 1 with allowsKey := true }

def key (lx : Lexer) : Except Fault Lexer := do
  lx.needsKey
  let lx ← (lx.inBlock .blockMappingStart).dropKey
  return { (lx.emit .key).advance 1 with allowsKey := !lx.inFlow }

def value (lx : Lexer) : Except Fault Lexer :=
  match lx.possibleKeys.lookup lx.flowLevel with
  | some found =>
    let tokens := lx.tokens.insertIdx (lx.tokens.length - found.tokens) .key
    let possibleKeys := lx.possibleKeys.filter (·.1 ≠ lx.flowLevel)
    let lx := { lx with tokens, possibleKeys, allowsKey := false }
    let lx :=
      if lx.inFlow then lx else lx.openBlock found.column .blockMappingStart found.tokens
    .ok ((lx.emit .value).advance 1)
  | none => do
    lx.needsKey
    let lx ← (lx.inBlock .blockMappingStart).dropKey
    return { (lx.emit .value).advance 1 with allowsKey := !lx.inFlow }

def named (token : Text → Token) (lx : Lexer) : Except Fault Lexer := do
  let lx ← lx.saveKey
  let (name, place) ← Token.readName (lx.place.advance 1)
  return { lx.emit (token name) with place, allowsKey := false }

def tag (lx : Lexer) : Except Fault Lexer := do
  let lx ← lx.saveKey
  let (token, place) ← Token.readTag lx.place
  return { lx.emit token with place, allowsKey := false }

def block (isFolded : Bool) (lx : Lexer) : Except Fault Lexer := do
  let lx ← lx.dropKey
  let (text, place) ← Block.read isFolded lx.indent (lx.place.advance 1)
  return { lx.emit (.scalar text false) with place, allowsKey := true }

def quoted (double : Bool) (lx : Lexer) : Except Fault Lexer := do
  let lx ← lx.saveKey
  let (text, width) ← Quoted.read double (lx.place.rest.drop 1)
  return { (lx.emit (.scalar text false)).advance (width + 1) with allowsKey := false }

def plain (lx : Lexer) : Except Fault Lexer := do
  let lx ← lx.saveKey
  let found := Plain.read lx.inFlow (lx.indent + 1) lx.place.rest
  return { (lx.emit (.scalar found.text true)).advance found.width with
    allowsKey := found.brokeLine }

def tokenAt (c : CodePoint) (rest : Text) (lx : Lexer) : Except Fault Lexer :=
  let next := rest.head?
  let here := c :: rest
  let atMargin := lx.place.column = 0
  if atMargin && c = '%' then lx.directive
  else if atMargin && startsWithMark "---" here then lx.documentMark .documentStart
  else if atMargin && startsWithMark "..." here then lx.documentMark .documentEnd
  else if c = '[' then lx.flowStart .flowSequenceStart
  else if c = '\x7b' then lx.flowStart .flowMappingStart
  else if c = ']' then lx.flowEnd .flowSequenceEnd
  else if c = '\x7d' then lx.flowEnd .flowMappingEnd
  else if c = ',' then lx.flowEntry
  else if c = '-' && endsWord next then lx.blockEntry
  else if c = '?' && (lx.inFlow || endsWord next) then lx.key
  else if c = ':' && (lx.inFlow || endsWord next) then lx.value
  else if c = '*' then lx.named .alias
  else if c = '&' then lx.named .anchor
  else if c = '!' then lx.tag
  else if c = '|' && !lx.inFlow then lx.block false
  else if c = '>' && !lx.inFlow then lx.block true
  else if c = '\'' then lx.quoted false
  else if c = '"' then lx.quoted true
  else if Plain.starts lx.inFlow c next then lx.plain
  else .error .malformed

-- All tokens from here on. Every token takes at least one code point, so that the length
-- of the text bounds their number.
def run : Nat → Lexer → List Token
  | 0, lx => lx.tokens
  | fuel + 1, lx =>
    let broken (fault : Fault) : List Token := .broken fault :: lx.tokens
    match lx.skipGap.dropStale with
    | .error fault => broken fault
    | .ok lx =>
      let lx := lx.unwind lx.place.column
      match lx.place.rest with
      | [] =>
        match (lx.unwind (-1)).dropKey with
        | .error fault => .broken fault :: lx.tokens
        | .ok lx => lx.tokens
      | c :: rest =>
        match lx.tokenAt c rest with
        | .error fault => .broken fault :: lx.tokens
        | .ok lx => run fuel lx

end Lexer

-- The tokens of a document in order. A code point that no document may hold spoils all.
def Token.ofText (document : Text) : List Token :=
  if document.all isAllowed then ((Lexer.start document).run (document.length + 1)).reverse
  else [.broken .malformed]

end Yaml

end SpanTags
