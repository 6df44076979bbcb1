import Outreach.Automation.Basic

/-! Boards of a customer relationship pipeline and their stages. -/
namespace Outreach
open Decode

structure Stage where
  id : String
  title : String
  tagsToApply : List String
  deriving DecidableEq, Repr

structure Board where
  id : String
  userId : Uuid
  name : String
  stages : List Stage
  createdAt : Instant

structure BoardFile where
  id : String
  name : String
  stages : List Stage

def Stage.decode : Decoder Stage :=
  (Stage.mk <$> Fields.required "id" string <*> Fields.required "title" string <*>
    Fields.withDefault "tagsToApply" [] (list string)).object

def Stage.encode (s : Stage) : Json :=
  .obj [("id", .str s.id), ("title", .str s.title), ("tagsToApply", .strs s.tagsToApply)]

def Board.decode : Decoder Board :=
  (Board.mk <$> Fields.required "id" string <*> Fields.required "userId" uuid <*>
    Fields.required "name" string <*> Fields.withDefault "stages" [] (list Stage.decode) <*>
    Fields.required "createdAt" instant).object

def Board.encode (b : Board) : Json :=
  .obj [("id", .str b.id), ("userId", .str b.userId.text), ("name", .str b.name),
    ("stages", .arr (b.stages.map Stage.encode)), ("createdAt", .str b.createdAt.text)]

/-- Stages may also be called columns. -/
def BoardFile.decode : Decoder BoardFile :=
  (BoardFile.mk <$> Fields.required "id" string <*> Fields.required "name" string <*>
    Fields.aliased "stages" ["columns"] [] (list Stage.decode)).object

def BoardFile.encode (b : BoardFile) : Json :=
  .obj [("id", .str b.id), ("name", .str b.name), ("stages", .arr (b.stages.map Stage.encode))]

end Outreach
