import Outreach.Json.Decode

/-! Tests on a contact, and how a group of them is combined. -/
namespace Outreach
open Decode

inductive Logic where
  | and
  | or
  deriving DecidableEq, Repr, Inhabited

inductive TagOperator where
  | contains
  | notContains
  deriving DecidableEq, Repr

inductive WindowOperator where
  | isOpen
  | isClosed
  deriving DecidableEq, Repr

inductive FieldOperator where
  | is
  | isNot
  | contains
  deriving DecidableEq, Repr

inductive HoursOperator where
  | isWithin
  | isOutside
  deriving DecidableEq, Repr

inductive Condition where
  | contactTag (operator : TagOperator) (value : String)
  | conversationWindow (operator : WindowOperator)
  | contactField (field : String) (operator : FieldOperator) (value : String)
  /-- `days` are three-letter names; both times are `HH:MM` and belong to the interval. -/
  | businessHours (operator : HoursOperator) (days : List String) (opens closes : String)
  deriving DecidableEq, Repr

namespace Logic

def names : List (String × Logic) := [("and", .and), ("or", .or)]

def text : Logic → String
  | .and => "and"
  | .or => "or"

end Logic

def TagOperator.names : List (String × TagOperator) :=
  [("contains", .contains), ("not_contains", .notContains)]

def TagOperator.text : TagOperator → String
  | .contains => "contains"
  | .notContains => "not_contains"

def WindowOperator.names : List (String × WindowOperator) :=
  [("is_open", .isOpen), ("is_closed", .isClosed)]

def WindowOperator.text : WindowOperator → String
  | .isOpen => "is_open"
  | .isClosed => "is_closed"

def FieldOperator.names : List (String × FieldOperator) :=
  [("is", .is), ("is_not", .isNot), ("contains", .contains)]

def FieldOperator.text : FieldOperator → String
  | .is => "is"
  | .isNot => "is_not"
  | .contains => "contains"

def HoursOperator.names : List (String × HoursOperator) :=
  [("is_within", .isWithin), ("is_outside", .isOutside)]

def HoursOperator.text : HoursOperator → String
  | .isWithin => "is_within"
  | .isOutside => "is_outside"

namespace Condition

def contactTagFields : Fields Condition :=
  .contactTag <$> .required "operator" (choice TagOperator.names) <*> .withDefault "value" "" string

def conversationWindowFields : Fields Condition :=
  .conversationWindow <$> .required "operator" (choice WindowOperator.names)

def contactFieldFields : Fields Condition :=
  .contactField <$> .required "field" string <*> .required "operator" (choice FieldOperator.names) <*>
    .withDefault "value" "" string

def businessHoursFields : Fields Condition :=
  .businessHours <$> .required "operator" (choice HoursOperator.names) <*>
    .withDefault "days" [] (list string) <*> .required "startTime" string <*> .required "endTime" string

def decode : Decoder Condition :=
  tagged "source" [
    ("contact_tag", contactTagFields.object),
    ("conversation_window", conversationWindowFields.object),
    ("contact_field", contactFieldFields.object),
    ("business_hours", businessHoursFields.object)]

def encode : Condition → Json
  | .contactTag op v =>
    .obj [("source", .str "contact_tag"), ("operator", .str op.text), ("value", .str v)]
  | .conversationWindow op => .obj [("source", .str "conversation_window"), ("operator", .str op.text)]
  | .contactField f op v =>
    .obj [("source", .str "contact_field"), ("field", .str f), ("operator", .str op.text), ("value", .str v)]
  | .businessHours op days o c =>
    .obj [("source", .str "business_hours"), ("operator", .str op.text), ("days", .strs days),
      ("startTime", .str o), ("endTime", .str c)]

end Condition
end Outreach
