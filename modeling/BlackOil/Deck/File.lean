import BlackOil.Deck.Reader

/-!
# Deck files

A deck file is UTF-8 text. Its path is shown without empty segments and without
the segment `.`.
-/
namespace BlackOil.Deck

/-- A path without empty segments and without `.`. Exactly two slashes in front
stay two, more become one. -/
def cleanPath (path : String) : String :=
  let chars := path.toList
  let root :=
    match chars.takeWhile (· == '/') with
    | [] => ""
    | ['/', '/'] => "//"
    | _ => "/"
  let segments := (path.splitOn "/").filter fun s => s ≠ "" ∧ s ≠ "."
  let clean := root ++ String.intercalate "/" segments
  if clean = "" then "." else clean

/-- Reads the contents of the file at a path; `none` stands for a file that is
not there. -/
def ofFile {α : Type} [Scalar α] (constants : Constants α) (path : String)
    (contents : Option ByteArray) : Except Fault (Deck α) :=
  match contents with
  | none => .error (.missingFile (cleanPath path))
  | some bytes =>
    match String.fromUTF8? bytes with
    | some text => parse constants text
    | none => .error .undecodableFile

end BlackOil.Deck
