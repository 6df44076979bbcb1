import Outreach.Engine.Program
import Outreach.Text.Lower

/-! Testing conditions. A group reads the contact anew before each test and stops at the first that
decides it. -/
namespace Outreach

/-- Clock times compare as texts. -/
def withinHours (days : List String) (opens closes : String) (now : WallClock) : Bool :=
  days.any (Text.sameIgnoringCase · now.weekday.short) && decide (opens ≤ now.text) &&
    decide (now.text ≤ closes)

def FieldOperator.holds (op : FieldOperator) (actual : Option String) (expected : String) : Bool :=
  match op with
  | .is => actual == some expected
  | .isNot => actual != some expected
  | .contains => actual.any (Text.contains · expected)

def Condition.check (c : Contact) (now : WallClock) : Condition → Bool
  | .contactTag .contains value => c.hasTag value
  | .contactTag .notContains value => !c.hasTag value
  | .conversationWindow .isOpen => c.is24hWindowOpen
  | .conversationWindow .isClosed => !c.is24hWindowOpen
  | .contactField field op value => op.holds ((c.fieldText? field).map Text.lower) (Text.lower value)
  | .businessHours .isWithin days o cl => withinHours days o cl now
  | .businessHours .isOutside days o cl => !withinHours days o cl now

/-- Whether the group holds; without conditions `and` does and `or` does not. -/
def evaluate (contactId : Int) (logic : Logic) (now : WallClock) :
    List Condition → Attempt ConditionError Bool
  | [] => return logic == .and
  | c :: rest => do
    match ← .of .repository (.request (.getContact contactId)) with
    | none => throw (.contactMissing contactId)
    | some contact =>
      match logic, c.check contact now with
      | .and, false => return false
      | .or, true => return true
      | _, _ => evaluate contactId logic now rest

end Outreach
