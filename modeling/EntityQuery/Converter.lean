import EntityQuery.Field
import EntityQuery.Value.Display
/-! Ready-made converters: lists of texts kept as one text, and single values kept as a list of one. -/

namespace EntityQuery.Converter

def joinItems : Value → Except Failure Value
  | .array items => do return .text (String.intercalate "," (← Value.displayItems items))
  | _ => .error (.wrongKind "join is not a function")

def splitItems : Value → Except Failure Value
  | .text s => .ok (.array ((s.toList.splitOn ',').map fun cs => .text (String.ofList cs)))
  | _ => .error (.wrongKind "split is not a function")

def commaSeparated : Converter := ⟨"csv", joinItems, splitItems⟩

def firstItem : Value → Value
  | .array items => items.head?.getD .absent
  | v => v

def boxed : Converter := ⟨"box", fun v => .ok (.array [v]), fun v => .ok (firstItem v)⟩

def ofLabel? (label : String) : Option Converter := [commaSeparated, boxed].find? fun c => c.label == label

end EntityQuery.Converter
