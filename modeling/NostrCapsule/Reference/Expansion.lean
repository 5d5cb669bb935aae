import NostrCapsule.Reference.Naming
import NostrCapsule.Reference.Scan

/-!
Contract: references replaced by what they stand for.

Owns:
- `Entity.resolve`, from a token to an entity, and `ResolveError`;
- `Memo`, what is known of the tokens of a text while it is expanded;
- `expand`, which replaces the references of a text that resolve and leaves the others.

Does not own: the form of a replacement.
-/

namespace NostrCapsule

/-- Why a token does not resolve. -/
inductive ResolveError where
  | decode (cause : TokenError)
  | unsupported (name : String)
deriving DecidableEq, Repr

namespace ResolveError

def message : ResolveError → String
  | .decode cause => "cannot decode identifier: " ++ cause.message
  | .unsupported name => s!"unsupported identifier '{name}'"

def ofTokenError : TokenError → ResolveError
  | .unsupportedPrefix name => .unsupported name
  | cause => .decode cause

def cause? : ResolveError → Option TokenError
  | .decode cause => some cause
  | .unsupported _ => none

end ResolveError

namespace Entity

/-- The entity of a token that reads as a pointer. -/
def ofPointer (token : String) (pointer : Pointer) : Lookup Entity := do
  let displayName ← Naming.pointerName pointer
  pure { kind := pointer.kind, displayName, linkPath := pointer.linkPath,
         spelling := scheme ++ token }

/-- The entity of a token. -/
def resolve (token : String) : Lookup (Except ResolveError Entity) :=
  match Pointer.ofToken token with
  | .error cause => pure (.error (.ofTokenError cause))
  | .ok pointer => do pure (.ok (← ofPointer token pointer))

end Entity

/-- What is known of tokens: the entity that each one resolved to, or that it did not resolve. -/
abbrev Memo := List (String × Option Entity)

/-- The entity of a token, if it has one, and what is known after that.  A token is resolved where
it is met first; what came of that holds wherever it is met again, also if it did not resolve. -/
def Memo.resolve (memo : Memo) (token : String) : Lookup (Option Entity × Memo) :=
  match memo.lookup token with
  | some known => pure (known, memo)
  | none => do
      let found := (← Entity.resolve token).toOption
      pure (found, (token, found) :: memo)

/-- The characters that a piece becomes: the form of its entity or, if it has none, what it is. -/
def Piece.replaced (format : Entity → String) (piece : Piece) : Option Entity → List Char
  | some entity => (format entity).toList
  | none => piece.chars

/-- A text after its references were replaced, and the entities that replaced them, in order. -/
structure Expansion where
  text : String
  entities : List Entity
deriving DecidableEq, Repr

/-- Replaces references piece by piece.  `written` holds the characters of the pieces before, and
`entities` the entities, both in reverse. -/
def expandPieces (format : Entity → String) (memo : Memo) (written : List Char)
    (entities : List Entity) : List Piece → Lookup Expansion
  | [] => pure { text := String.ofList written.reverse, entities := entities.reverse }
  | .plain character :: rest => expandPieces format memo (character :: written) entities rest
  | .reference token :: rest => do
      let (found, memo) ← memo.resolve token
      expandPieces format memo (((Piece.reference token).replaced format found).reverseAux written)
        (found.toList ++ entities) rest

/-- Replaces the references in a text that resolve, and leaves the others as they are. -/
def expand (format : Entity → String) (text : String) : Lookup Expansion :=
  expandPieces format [] [] [] (Reference.piecesOf text)

def expandNames (text : String) : Lookup Expansion :=
  expand Entity.displayName text

end NostrCapsule
