/-!
# Where a converted archive goes

A converted archive is written next to its input: the file name loses its
`.jar` ending, if it has one, and gets an ending of its own. A path is taken
apart at its slashes; empty segments and single dots after the first segment
do not count.
-/

namespace ValueForm

namespace OutputPath

/-- The ending of converted archives. -/
def ending : String := "-valuetypified.jar"

/-- The ending an input file name loses. -/
def inputEnding : List Char := ".jar".toList

/-- Whether a segment after the first one leaves the place as it is. -/
def isNeutral (segment : List Char) : Bool :=
  segment == [] || segment == ['.']

/-- The segments between slashes; there is always one. -/
def segments (path : List Char) : List (List Char) :=
  path.splitOn '/'

/-- Segments without neutral ones at the end. -/
def trimNeutral (body : List (List Char)) : List (List Char) :=
  (body.reverse.dropWhile isNeutral).reverse

/-- Segments with slashes between them. -/
def join (parts : List (List Char)) : List Char :=
  ['/'].intercalate parts

/-- The text before the file name and the file name. There is none in a path
that ends in two dots, in the starting dot, or in the root. -/
def split? (path : List Char) : Option (List Char × List Char) :=
  match segments path with
  | [] => none
  | first :: body =>
      match (trimNeutral body).reverse with
      | [] =>
          if first = [] ∨ first = ['.'] ∨ first = ['.', '.'] then none else some ([], first)
      | last :: before =>
          if last = ['.', '.'] then none
          else
            let parent := trimNeutral before.reverse
            some (if first = [] ∧ parent = [] then ['/'] else join (first :: parent), last)

/-- A file in a directory. -/
def inside (directory file : List Char) : List Char :=
  if directory = [] ∨ directory.getLast? = some '/' then directory ++ file
  else directory ++ '/' :: file

/-- A file name without the ending of archives. -/
def base (name : List Char) : List Char :=
  if inputEnding.isSuffixOf name then name.take (name.length - inputEnding.length) else name

end OutputPath

open OutputPath in
/-- The path of the converted archive of an archive. -/
def outputPath (path : String) : String :=
  match split? path.toList with
  | some (parent, name) => String.ofList (inside parent (base name ++ ending.toList))
  | none => String.ofList (inside path.toList ending.toList)

end ValueForm
