/-!
# Notes

What a conversion reports on the way, for the log of the command line.
-/

namespace ValueForm

/-- How important a note is. -/
inductive NoteLevel where
  | debug
  | info
  | warn
  deriving DecidableEq, Repr

/-- The five columns a level takes in the log. -/
def NoteLevel.label : NoteLevel → String
  | .debug => "DEBUG"
  | .info => "INFO "
  | .warn => "WARN "

/-- Something to report. -/
inductive Note where
  /-- A class was found to be value-capable. -/
  | capable (className : String)
  /-- The analysis of a method took decisions. -/
  | decisions (method : String) (count : Nat)
  /-- A branch is given its long form. -/
  | widening (address : Nat)
  /-- No verification frames are left in a method. -/
  | noStackMap
  /-- An attribute of a method body is not carried over. -/
  | dropped (name : String)
  | classConverted (className : String)
  | entryConverted (entry : String)
  /-- The end of the conversion of an archive. -/
  | summary (converted total lookups : Nat)
  | wrote (path : String)
  deriving DecidableEq, Repr

namespace Note

/-- The level of a note. -/
def level : Note → NoteLevel
  | .dropped _ => .warn
  | .summary .. => .info
  | _ => .debug

/-- The text of a note. -/
def text : Note → String
  | .capable className => className ++ " is value-capable"
  | .decisions method count => method ++ s!": {count} patch records"
  | .widening address => s!"widening branch at {address} to reach its target"
  | .noStackMap => "rewritten method needs no StackMapTable"
  | .dropped name => "dropping " ++ name ++ " attribute of a rewritten method"
  | .classConverted className => className ++ " converted"
  | .entryConverted entry => entry ++ " rewritten"
  | .summary converted total lookups =>
      s!"{converted} of {total} entries rewritten, {lookups} class lookups"
  | .wrote path => "wrote " ++ path

end Note

end ValueForm
