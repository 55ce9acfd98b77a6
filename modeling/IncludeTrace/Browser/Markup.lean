/-
Markup: texts with style tags in square brackets.

A tag is a bracket, a small letter or one of `#`, `/` and `@`, a run without
brackets, and the closing bracket.  Backslashes in front of a tag come in pairs
that stand for one, and a single one left over makes the tag an ordinary text.

* `escape` — the markup that is meant to show a given text;
* `pieces` — markup taken apart into tags and the characters between them;
* `texts` — the texts between the tags, as they show;
* `plain` — the text that markup shows, with emoji in the place of their codes.

Which codes there are is left open.  `escape` leaves two backslashes at the end
of a text alone, so when a tag follows them they show as one.
-/

namespace IncludeTrace.Markup

/-- Whether a tag may begin with a character. -/
def startsTag (c : Char) : Bool :=
  ('a' ≤ c && c ≤ 'z') || c == '#' || c == '/' || c == '@'

/-- The tag at the start of a text, with its brackets. -/
def tagAt? : List Char → Option (List Char)
  | '[' :: c :: rest =>
    let inside := rest.takeWhile fun d => d != '[' && d != ']'
    if startsTag c && (rest.drop inside.length).head? == some ']' then
      some ('[' :: c :: inside ++ [']'])
    else none
  | _ => none

/-- The backslashes at the start of a text, and the tag behind them. -/
def escapedTagAt? (s : List Char) : Option (Nat × List Char) :=
  let slashes := (s.takeWhile (· == '\\')).length
  (tagAt? (s.drop slashes)).map (slashes, ·)

/-- A part of a markup text. -/
inductive Piece where
  | char (c : Char)
  /-- A tag, and how many backslashes stand in front of it. -/
  | tag (slashes : Nat) (text : List Char)
  deriving DecidableEq, Repr

/-- The parts of a text behind its first `skip` characters. -/
def piecesAfter : Nat → List Char → List Piece
  | _, [] => []
  | skip + 1, _ :: s => piecesAfter skip s
  | 0, c :: s =>
    match escapedTagAt? (c :: s) with
    | some (slashes, text) => .tag slashes text :: piecesAfter (slashes + text.length - 1) s
    | none => .char c :: piecesAfter 0 s

/-- The parts of a text. -/
def pieces (s : List Char) : List Piece :=
  piecesAfter 0 s

/-- A part as it is written so that it shows as it stands. -/
def Piece.escaped : Piece → List Char
  | char c => [c]
  | tag slashes text => List.replicate (2 * slashes + 1) '\\' ++ text

/-- Whether a text ends in exactly one backslash. -/
def endsInOneBackslash (s : List Char) : Bool :=
  (s.reverse.takeWhile (· == '\\')).length == 1

/-- The markup that is meant to show a text. -/
def escapeChars (s : List Char) : List Char :=
  let marked := (pieces s).flatMap Piece.escaped
  if endsInOneBackslash marked then marked ++ ['\\'] else marked

/-- The markup that is meant to show a text. -/
def escape (s : String) : String :=
  String.ofList (escapeChars s.toList)

/-- The texts that parts show, one by one: the characters between two tags, half of the
backslashes in front of a tag, and the tag itself where one of them is left over. -/
def stretches : List Piece → List (List Char)
  | [] => [[]]
  | .char c :: rest => (stretches rest).modifyHead (c :: ·)
  | .tag slashes text :: rest =>
    [] :: List.replicate (slashes / 2) '\\' :: (if slashes % 2 = 1 then text else [])
      :: stretches rest

/-- A text without the backslashes in front of brackets. -/
def bare : List Char → List Char
  | [] => []
  | '\\' :: '[' :: s => '[' :: bare s
  | c :: s => c :: bare s

/-- The texts that parts show; backslashes in front of brackets that open no tag are left
out. -/
def texts (parts : List Piece) : List (List Char) :=
  (stretches parts).map bare

/-- What a renderer makes of the emoji codes in a text, such as `:smile:`. -/
abbrev Emoji := List Char → List Char

/-- A renderer without emoji leaves their codes as they are. -/
def Emoji.absent : Emoji := id

/-- Whether a terminal would act on a character instead of showing it: bell,
backspace, vertical tab, form feed and carriage return. -/
def isActing (c : Char) : Bool :=
  c == '\x07' || c == '\x08' || c == '\x0b' || c == '\x0c' || c == '\r'

/-- The text that markup shows; no emoji code reaches over a tag. -/
def plain (emoji : Emoji) (markup : String) : List Char :=
  ((texts (pieces markup.toList)).flatMap emoji).filter fun c => !isActing c

/-- The first line of the text that markup shows. -/
def firstLine (emoji : Emoji) (markup : String) : String :=
  String.ofList ((plain emoji markup).takeWhile (· != '\n'))

end IncludeTrace.Markup
