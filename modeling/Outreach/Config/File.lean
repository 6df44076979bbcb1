import Outreach.Config.Basic
import Outreach.Config.Toml

/-! The configuration file. -/
namespace Outreach.Config

def ofText? (text : String) : Option Config :=
  (Toml.parse? text).bind fun d => (decode .value d).toOption

/-- A file that is missing or cannot be read leaves everything as it is by default. -/
def load (file : Option String) (environment : String → Option String) : Config :=
  ((file.bind ofText?).getD .standard).withEnvironment environment

end Outreach.Config
