/-
The tokens of a text with their places. The pieces of the text are laid
end to end; a piece stands where the text in front of it leads, and
tokens, trivia, logical lines and errors are read off the pieces in
order.
-/
import FrontEnd.Token.Piece

namespace FrontEnd

open Text

/-- A place in a text, in bytes and as a location. -/
structure Place where
  offset : Nat
  location : Location
deriving DecidableEq, Repr

namespace Place

/-- Where every text begins. -/
def start : Place := ⟨0, .start⟩

/-- The place after reading the given text. -/
def after (p : Place) (cs : List Char) : Place :=
  ⟨p.offset + byteSize cs, p.location.after cs⟩

end Place

/-- A piece and where it begins. -/
structure PlacedPiece where
  piece : Piece
  place : Place

namespace PlacedPiece

/-- The pieces laid end to end from a place on, behind those done. -/
def lay (done : Array PlacedPiece) (place : Place) :
    List Piece → Array PlacedPiece
  | [] => done
  | p :: ps => lay (done.push ⟨p, place⟩) (place.after p.text) ps

/-- The pieces of a text, each at its place. -/
def ofText (cs : List Char) : List PlacedPiece :=
  (lay #[] .start (Piece.ofText cs)).toList

/-- Where the piece ends. -/
def stop (p : PlacedPiece) : Place :=
  p.place.after p.piece.text

/-- The bytes that the piece covers. -/
def span (p : PlacedPiece) : Span :=
  ⟨p.place.offset, p.stop.offset⟩

/-- The token that a piece is, if it is one. -/
def token? (p : PlacedPiece) : Option Token :=
  match p.piece.role with
  | .token kind =>
    some ⟨kind, String.ofList p.piece.text, p.span, p.place.location⟩
  | .directive line =>
    some ⟨.directive, String.ofList line, p.span, p.place.location⟩
  | .trivia _ => none

/-- The trivia that a piece is, if it is that. -/
def trivia? (p : PlacedPiece) : Option Trivia :=
  match p.piece.role with
  | .trivia kind => some ⟨kind, p.span⟩
  | _ => none

/-- The logical line of a piece that is a directive. -/
def logicalLine? (p : PlacedPiece) : Option LogicalLine :=
  match p.piece.role with
  | .directive line =>
    some ⟨String.ofList line, p.place.location.line,
      p.stop.location.line⟩
  | _ => none

/-- The problems of a piece, each at its location. -/
def errors (p : PlacedPiece) : List LexicalError :=
  p.piece.problems.map fun e =>
    ⟨e.problem, p.place.location.after e.before⟩

end PlacedPiece

/-- All that is known of a text after splitting it. -/
structure TokenStream where
  /-- The tokens in order; the last one marks the end of the text. -/
  tokens : List Token
  trivia : List Trivia
  /-- One line for each directive. -/
  logicalLines : List LogicalLine
  errors : List LexicalError

namespace TokenStream

/-- The token at the end of a text. -/
def endToken (cs : List Char) : Token :=
  let place := Place.start.after cs
  ⟨.endOfFile, "", ⟨place.offset, place.offset⟩, place.location⟩

/-- Splits a text. -/
def ofText (cs : List Char) : TokenStream :=
  let placed := PlacedPiece.ofText cs
  { tokens := placed.filterMap PlacedPiece.token? ++ [endToken cs]
    trivia := placed.filterMap PlacedPiece.trivia?
    logicalLines := placed.filterMap PlacedPiece.logicalLine?
    errors := placed.flatMap PlacedPiece.errors }

/-- The stretches of a source that tokens and trivia cover, put together
in the order in which they begin. -/
def reconstruct (stream : TokenStream) (source : String) : String :=
  let spans := stream.tokens.map Token.span
    ++ stream.trivia.map Trivia.span
  let spans := (spans.filter (!·.isEmpty)).mergeSort
    fun a b => decide (a.start ≤ b.start)
  String.join (spans.map (·.slice source))

end TokenStream

/-- The logical lines of the directives of a text. -/
def logicalLines (cs : List Char) : List LogicalLine :=
  (TokenStream.ofText cs).logicalLines

-- ========================================== a directive on its own

/-- A directive that was read somewhere in a text. -/
structure Directive where
  line : LogicalLine
  span : Span
  stop : Location
  error : Option LexicalError

/-- The directive that begins at the given byte of a text. The byte
stands at `location`, and whatever it is belongs to the directive. -/
def Directive.readAt (text : List Char) (offset : Nat)
    (location : Location) : Directive :=
  let s := scan (dropBytes offset text)
  let p : PlacedPiece := ⟨.ofScan s, ⟨offset, location⟩⟩
  { line := ⟨String.ofList s.line, location.line, p.stop.location.line⟩
    span := p.span
    stop := p.stop.location
    error := p.errors.head? }

end FrontEnd
