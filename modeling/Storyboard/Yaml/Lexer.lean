import Storyboard.Yaml.Property
import Storyboard.Yaml.Scalar.Block

/-!
# Storyboard.Yaml.Lexer

A text as tokens.  The layout is followed on the way: `level` is the first column that
still belongs to the innermost block, and a line that starts before it ends the block.

Whether a node is a key shows only at the colon behind it.  So the place of each node
that may be one is kept as a candidate, one for each depth of flow collections; at the
colon the token for the key is put in at that place.  A candidate is dropped at the end
of its line, or when the colon is too far away.

Where a text breaks the rules, the tokens end with the fault.  Those before it are still
there, so that a document that is malformed before the fault is just that; but a node that
may be a key is none of them, as long as that is open.
-/

namespace Storyboard.Yaml

/-- The start of a node that may turn out to be a key. -/
structure Candidate where
  /-- The number of tokens before it. -/
  place : Nat
  /-- Whether it stands where only a key can stand. -/
  required : Bool
  index : Nat
  line : Nat
  column : Nat
  deriving DecidableEq, Repr

/-- The distance up to which a colon makes a key. -/
def keyReach : Nat := 1024

/-- Where reading a text has come to. -/
structure Lexer where
  cursor : Cursor
  /-- The tokens so far, the last first. -/
  tokens : List Token := []
  /-- Their number. -/
  count : Nat := 0
  /-- The first column of the innermost block, one more than its indentation; nothing
  is indented at zero. -/
  level : Nat := 0
  /-- The levels of the blocks around it. -/
  outer : List Nat := []
  /-- The candidate in the innermost flow collection, then those around it.  The last
  stands outside all flow collections. -/
  candidates : List (Option Candidate) := [none]
  /-- Whether a key may start here. -/
  keyAllowed : Bool := true
  deriving DecidableEq, Repr

namespace Lexer

/-- Whether the place is inside a flow collection. -/
def inFlow (s : Lexer) : Bool := decide (1 < s.candidates.length)

/-- One more token. -/
def emit (t : Token) (s : Lexer) : Lexer :=
  { s with tokens := t :: s.tokens, count := s.count + 1 }

/-- One more token at a place before others. -/
def emitAt (place : Nat) (t : Token) (s : Lexer) : Lexer :=
  let later := s.count - place
  { s with tokens := s.tokens.take later ++ t :: s.tokens.drop later, count := s.count + 1 }

/-- The place after the next characters. -/
def skip (n : Nat) (s : Lexer) : Lexer := { s with cursor := s.cursor.skip n }

/-- The place after spaces, comments and line ends.  Outside flow collections a key may
start on a new line; a step for each line. -/
def skipGaps : Nat → Lexer → Lexer
  | 0, s => s
  | n + 1, s =>
    let c := s.cursor.skipComment
    match c.lineBreak? with
    | some (_, c) => skipGaps n { s with cursor := c, keyAllowed := s.keyAllowed || !s.inFlow }
    | none => { s with cursor := c }

/-- The place of the next token.  A byte order mark may stand at the very start. -/
def toNext (s : Lexer) : Lexer :=
  let s :=
    if s.cursor.index = 0 ∧ s.cursor.sees byteOrderMark then s.skip 1 else s
  skipGaps s.cursor.steps s

/-- Whether a candidate can still become a key. -/
def isFresh (s : Lexer) (k : Candidate) : Bool :=
  k.line == s.cursor.line && decide (s.cursor.index ≤ k.index + keyReach)

/-- Drops the candidates that cannot become keys any more; one that had to become a key
is an error. -/
def dropStale (s : Lexer) : Except Fault Lexer :=
  let isStale (k : Option Candidate) := k.any fun k => !s.isFresh k
  if s.candidates.any fun k => isStale k && k.any (·.required) then .error .yamlMalformed
  else .ok { s with candidates := s.candidates.map fun k => if isStale k then none else k }

/-- Drops the candidate at this depth; one that had to become a key is an error. -/
def dropCandidate (s : Lexer) : Except Fault Lexer :=
  match s.candidates with
  | some k :: rest =>
    if k.required then .error .yamlMalformed else .ok { s with candidates := none :: rest }
  | _ => .ok s

/-- Keeps the next token as a candidate, if a key may start here. -/
def addCandidate (s : Lexer) : Except Fault Lexer :=
  if s.keyAllowed then do
    let required := !s.inFlow && s.level == s.cursor.column + 1
    let s ← s.dropCandidate
    let k : Candidate :=
      ⟨s.count, required, s.cursor.index, s.cursor.line, s.cursor.column⟩
    return { s with candidates := some k :: s.candidates.tail }
  else .ok s

/-- Ends the blocks whose lines start after a column; a token for each. -/
def endBlocks (level : Nat) (s : Lexer) : Lexer :=
  if s.inFlow then s else go s.level s.outer s
where
  /-- The same from the innermost block outwards. -/
  go (inner : Nat) : List Nat → Lexer → Lexer
    | outer :: rest, s =>
      if level < inner then go outer rest { s.emit .blockEnd with level := outer, outer := rest }
      else s
    | [], s => s

/-- Starts a block at a column, unless the innermost one starts there; the token goes
before the others from a place on. -/
def startBlock (column place : Nat) (t : Token) (s : Lexer) : Lexer :=
  if s.level ≤ column then
    { s.emitAt place t with level := column + 1, outer := s.level :: s.outer }
  else s

/-- The state after which a new document or its directives can come. -/
def endDocument (s : Lexer) : Except Fault Lexer := do
  let s ← (s.endBlocks 0).dropCandidate
  return { s with keyAllowed := false }

/-! ## the tokens -/

/-- A document boundary. -/
def boundary (t : Token) (s : Lexer) : Except Fault Lexer := do
  return ((← s.endDocument).skip 3).emit t

/-- A directive. -/
def directive (s : Lexer) : Except Fault Lexer := do
  let s ← s.endDocument
  let (d, c) ← Property.directive s.cursor
  return { s.emit (.directive d) with cursor := c }

/-- The start of a flow collection. -/
def flowStart (t : Token) (s : Lexer) : Except Fault Lexer := do
  let s ← s.addCandidate
  return { (s.skip 1).emit t with candidates := none :: s.candidates, keyAllowed := true }

/-- The end of a flow collection. -/
def flowEnd (t : Token) (s : Lexer) : Except Fault Lexer := do
  let s ← s.dropCandidate
  match s.candidates with
  | _ :: around :: more =>
    return { (s.skip 1).emit t with candidates := around :: more, keyAllowed := false }
  | _ => throw .yamlMalformed

/-- A comma in a flow collection. -/
def flowEntry (s : Lexer) : Except Fault Lexer := do
  let s ← s.dropCandidate
  return { (s.skip 1).emit .flowEntry with keyAllowed := true }

/-- The dash of an item. -/
def blockEntry (s : Lexer) : Except Fault Lexer := do
  if !s.inFlow && !s.keyAllowed then throw .yamlMalformed
  let s := if s.inFlow then s else s.startBlock s.cursor.column s.count .sequenceStart
  let s ← s.dropCandidate
  return { (s.skip 1).emit .blockEntry with keyAllowed := true }

/-- The question mark of a key. -/
def key (s : Lexer) : Except Fault Lexer := do
  if !s.inFlow && !s.keyAllowed then throw .yamlMalformed
  let s := if s.inFlow then s else s.startBlock s.cursor.column s.count .mappingStart
  let s ← s.dropCandidate
  return { (s.skip 1).emit .key with keyAllowed := !s.inFlow }

/-- The colon of a value.  A candidate before it becomes a key. -/
def value (s : Lexer) : Except Fault Lexer := do
  match s.candidates with
  | some k :: around =>
    let s := { s with candidates := none :: around }
    let s := s.emitAt k.place .key
    let s := if s.inFlow then s else s.startBlock k.column k.place .mappingStart
    return { (s.skip 1).emit .value with keyAllowed := false }
  | _ =>
    if !s.inFlow && !s.keyAllowed then throw .yamlMalformed
    let s := if s.inFlow then s else s.startBlock s.cursor.column s.count .mappingStart
    return { (s.skip 1).emit .value with keyAllowed := !s.inFlow }

/-- A token that a node can start with. -/
def node (read : Cursor → Except Fault (Token × Cursor)) (s : Lexer) : Except Fault Lexer := do
  let s ← s.addCandidate
  let (t, c) ← read s.cursor
  return { s.emit t with cursor := c, keyAllowed := false }

/-- A plain scalar. -/
def plain (s : Lexer) : Except Fault Lexer := do
  let s ← s.addCandidate
  let (cs, crossed, c) := Plain.read s.inFlow s.level s.cursor
  return { s.emit (.scalar ⟨cs, true⟩) with cursor := c, keyAllowed := crossed }

/-- A quoted scalar. -/
def quoted (double : Bool) (s : Lexer) : Except Fault Lexer :=
  s.node fun c => do
    let (p, c) ← Quoted.read double c
    return (.scalar ⟨p, false⟩, c)

/-- A block scalar. -/
def block (folded : Bool) (s : Lexer) : Except Fault Lexer := do
  let s ← s.dropCandidate
  let (cs, c) ← Block.read folded s.level s.cursor
  return { s.emit (.scalar ⟨cs, false⟩) with cursor := c, keyAllowed := true }

/-- The characters with a meaning of their own at the start of a token. -/
def indicators : List Char := "-?:,[]\x7b\x7d#&*!|>'\"%@`".toList

/-- Whether a plain scalar can start with a character, given what follows it. -/
def startsPlain (flow : Bool) (ch : Char) (rest : List Char) : Bool :=
  !(isGap ch || indicators.contains ch) ||
    (!endsBefore isGap rest && (ch == '-' || (!flow && (ch == '?' || ch == ':'))))

/-- The token that starts with a character. -/
def token (ch : Char) (rest : List Char) (s : Lexer) : Except Fault Lexer :=
  let flow := s.inFlow
  let alone := flow || endsBefore isGap rest
  if ch = '%' ∧ s.cursor.column = 0 then s.directive
  else if s.cursor.atTriple '-' then s.boundary .documentStart
  else if s.cursor.atTriple '.' then s.boundary .documentEnd
  else if ch = '[' then s.flowStart .flowSequenceStart
  else if ch = '{' then s.flowStart .flowMappingStart
  else if ch = ']' then s.flowEnd .flowSequenceEnd
  else if ch = '}' then s.flowEnd .flowMappingEnd
  else if ch = ',' then s.flowEntry
  else if ch = '-' ∧ endsBefore isGap rest then s.blockEntry
  else if ch = '?' ∧ alone then s.key
  else if ch = ':' ∧ alone then s.value
  else if ch = '*' then s.node fun c => do
    let (name, c) ← Property.anchorName c
    return (.reference name, c)
  else if ch = '&' then s.node fun c => do
    let (name, c) ← Property.anchorName c
    return (.anchor name, c)
  else if ch = '!' then s.node Property.tag
  else if ch = '|' ∧ !flow then s.block false
  else if ch = '>' ∧ !flow then s.block true
  else if ch = '\'' then s.quoted false
  else if ch = '"' then s.quoted true
  else if startsPlain flow ch rest then s.plain
  else .error .yamlMalformed

/-- The next token, if there is one; else the end of the document. -/
def step (s : Lexer) : Except Fault (Bool × Lexer) := do
  let s ← s.toNext.dropStale
  let s := s.endBlocks (s.cursor.column + 1)
  match s.cursor.rest with
  | [] => return (false, ← s.endDocument)
  | ch :: rest => return (true, ← s.token ch rest)

/-- The number of tokens before the first candidate. -/
def settled (s : Lexer) : Nat :=
  s.candidates.foldl (fun n k => k.elim n fun k => min n k.place) s.count

/-- The tokens before a fault in what comes next. -/
def broken (fault : Fault) (s : Lexer) : Tokens :=
  match s.dropStale with
  | .ok s => ⟨s.tokens.reverse.take s.settled, some fault⟩
  | .error fault => ⟨[], some fault⟩

/-- All tokens from here on; a step for each. -/
def run : Nat → Lexer → Tokens
  | 0, s => s.broken .yamlMalformed
  | n + 1, s =>
    match s.step with
    | .error fault => s.broken fault
    | .ok (false, s) => ⟨s.tokens.reverse, none⟩
    | .ok (true, s) => run n s

end Lexer

/-- The tokens of a text. -/
def tokens (cs : List Char) : Tokens :=
  Lexer.run (cs.length + 1) { cursor := .ofChars cs }

end Storyboard.Yaml
