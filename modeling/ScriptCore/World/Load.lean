import ScriptCore.Settings.Search
import ScriptCore.World.Start

/-!
# Worlds of directories
-/

namespace ScriptCore
namespace World

def quiet (settings : Settings) : Except Failure World :=
  start settings .discard Source.standard false

/-- A new world with the settings of a directory, or with the default settings if it has none. -/
def load (t : FileTree) (directory : Path) : Except Failure World := do
  match Settings.find? t directory with
  | some path =>
      let settings ← (Settings.load t path).mapError .error
      quiet settings
  | none => quiet .default

def valueOf (w : World) (name : String) : Except Failure (Value × World) :=
  match (getGlobal 0 name).run w with
  | (.ok v, w) => .ok (v, w)
  | (.error f, _) => .error f

end World
end ScriptCore
