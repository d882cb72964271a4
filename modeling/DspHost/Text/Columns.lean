/-!
# Columns

## Main definitions

* `alignLeft`, `alignRight` — a text filled up with spaces to the width of a column
* `textOfLines` — lines as a text
-/

namespace DspHost

/-- A text followed by spaces up to a width. Longer texts stay as they are. -/
def alignLeft (width : Nat) (text : String) : String :=
  text ++ String.ofList (List.replicate (width - text.length) ' ')

/-- A text after spaces up to a width. Longer texts stay as they are. -/
def alignRight (width : Nat) (text : String) : String :=
  String.ofList (List.replicate (width - text.length) ' ') ++ text

/-- The text of lines, with a line feed after every line. -/
def textOfLines (lines : List String) : String := String.join (lines.map (· ++ "\n"))

theorem length_alignLeft (width : Nat) (text : String) :
    (alignLeft width text).length = max width text.length := by
  simp only [alignLeft, String.length_append, String.length_ofList, List.length_replicate]
  omega

theorem length_alignRight (width : Nat) (text : String) :
    (alignRight width text).length = max width text.length := by
  simp only [alignRight, String.length_append, String.length_ofList, List.length_replicate]
  omega

end DspHost
