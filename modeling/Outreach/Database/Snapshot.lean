import Outreach.Database.Cells

/-! A whole database as one document, so that it can be kept in a file. Cells are kept as they are, damaged
ones included. -/
namespace Outreach
open Stored Decode

namespace Database
variable {α : Type}

def rowSnapshot (columns : List (Column α)) (r : α) : Json :=
  .obj (columns.filterMap fun c => (c.get r).map fun s => (c.name, .str s))

def rowOfSnapshot (columns : List (Column α)) (blank : α) (texts : Keyed String) : α :=
  columns.foldl (fun r c => match Keyed.get? texts c.name with
    | some s => c.set s r
    | none => r) blank

def snapshot (db : Database) : Json :=
  .obj [("automations", .arr (db.automations.map (rowSnapshot AutomationRow.columnsOf))),
    ("contacts", .arr (db.contacts.map fun r =>
      .obj [("id", .int r.id), ("cells", rowSnapshot ContactRow.columnsOf r)])),
    ("connections", .arr (db.connections.map (rowSnapshot ConnectionRow.columnsOf))),
    ("boards", .arr (db.boards.map (rowSnapshot BoardRow.columnsOf))),
    ("tasks", .arr (db.tasks.map fun r =>
      .obj [("id", .int r.id), ("contact", .int r.contactId), ("cells", rowSnapshot TaskRow.columnsOf r)])),
    ("lastContactId", .nat db.lastContactId), ("lastTaskId", .nat db.lastTaskId)]

def cells : Decoder (Keyed String) := Decode.keyed Decode.string

def contactOfSnapshot (id : Int) (texts : Keyed String) : ContactRow :=
  rowOfSnapshot ContactRow.columnsOf
    ⟨id, "", "", "", "", none, .ofBool false, .ofBool false, none, "", ""⟩ texts

def taskOfSnapshot (id contact : Int) (texts : Keyed String) : TaskRow :=
  rowOfSnapshot TaskRow.columnsOf ⟨id, "", contact, "", "", "", "", "", "", none, ""⟩ texts

def rows (columns : List (Column α)) (blank : α) : Decoder (List α) := fun o d =>
  (Decode.list cells o d).map fun rs => rs.map (rowOfSnapshot columns blank)

def ofSnapshot : Decoder Database :=
  (Database.mk <$>
    Fields.required "automations" (rows AutomationRow.columnsOf
      ⟨"", "", "", "", "", "", .ofBool false, .ofBool false, "", ""⟩) <*>
    Fields.required "contacts" (Decode.list
      (contactOfSnapshot <$> Fields.required "id" int64 <*> Fields.required "cells" cells).object) <*>
    Fields.required "connections" (rows ConnectionRow.columnsOf ⟨"", "", "", "", "", "", ""⟩) <*>
    Fields.required "boards" (rows BoardRow.columnsOf ⟨"", "", "", "", ""⟩) <*>
    Fields.required "tasks" (Decode.list
      (taskOfSnapshot <$> Fields.required "id" int64 <*> Fields.required "contact" int64 <*>
        Fields.required "cells" cells).object) <*>
    Fields.required "lastContactId" (Decode.nat (Nat.pow 2 63)) <*>
    Fields.required "lastTaskId" (Decode.nat (Nat.pow 2 63))).object

end Database
end Outreach
