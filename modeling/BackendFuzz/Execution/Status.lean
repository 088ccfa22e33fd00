import BackendFuzz.Text.Blank
import BackendFuzz.Text.Lowercase
import BackendFuzz.Text.Word

/-!
# Run status and the machine's report

A status is the machine's marker in lower case, its words joined by hyphens. The
report is text for people: status and output stand behind the labels `Result:`
and `Output:`.
-/

namespace BackendFuzz

/-- The status text of a marker: the hyphened words of its lower case. -/
def normalizeStatus (marker : String) : String :=
  "-".intercalate
    ((Text.words (Text.lower (Text.trim marker.toList))).map String.ofList)

def successStatus : String := "success"

/-- The status that stands for a run that could not be made. -/
def noOpStatus : String := "no-op"

namespace Report

def isMarkerChar (c : Char) : Bool := c == ' ' || Text.isWord c

def after? : List Char → List Char → Option (List Char)
  | [], cs => some cs
  | _ :: _, [] => none
  | l :: label, c :: cs => if l = c then after? label cs else none

def markerHere (label cs : List Char) : Option (List Char) := do
  let rest ← after? label cs
  let marker := rest.takeWhile isMarkerChar
  if marker.isEmpty then none else some marker

/-- The marker behind the first label that has one. -/
def marker? (label : List Char) : List Char → Option (List Char)
  | [] => markerHere label []
  | c :: rest =>
    match markerHere label (c :: rest) with
    | some marker => some marker
    | none => marker? label rest

end Report

def readReport (text : String) : Option (String × String) :=
  match Report.marker? "Result:".toList text.toList with
  | none => none
  | some status =>
    let output := match Report.marker? "Output:".toList text.toList with
      | some marker => String.ofList (Text.trim marker)
      | none => ""
    some (normalizeStatus (String.ofList status), output)

end BackendFuzz
