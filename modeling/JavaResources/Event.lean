import JavaResources.Path
import JavaResources.Text.Decimal
import JavaResources.Text.Quoted

/-!
# Events

What happens while a class is built or a file is written is reported as events, which a caller may
log. Every event is for debugging.
-/

namespace JavaResources

/-- Something worth a line in the log. -/
inductive Event where
  /-- A new member replaced one of the same name. -/
  | memberOverridden (className memberName : String)
  /-- A file was written. -/
  | wrote (bytes : Nat) (path : Path)

namespace Event

/-- The text of the line in the log. -/
def message : Event → String
  | .memberOverridden _ _ => "member overridden"
  | .wrote bytes path =>
    "Wrote " ++ String.ofList (Text.decimal bytes) ++ " bytes to "
      ++ String.ofList (Text.quoted path.chars)

end Event

end JavaResources
