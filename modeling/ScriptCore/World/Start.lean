import ScriptCore.World.Globals

/-!
# Starting a world

The global variables of the settings are declared tier by tier, in the order
of their names.
-/

namespace ScriptCore
namespace World

def seed (tier : Int) (name : String) (initial : Initial) : Op Unit :=
  tryCatch
    (do
      match initial with
      | .ok value =>
          let value ← Op.build (Heap.copy value)
          declareGlobal 0 name tier .missing value
      | .error e => Op.fail e)
    fun
      | .error e => Op.fail (.context ("global " ++ name) e)
      | .panic p => Op.stop p

def seedTier (tier : Int) (initials : NameMap Initial) : Op Unit :=
  initials.toSorted.forM fun e => seed tier e.1 e.2

def seedGlobals (g : Globals) : Op Unit := do
  seedTier 1 g.shared
  seedTier 2 g.guarded
  seedTier 0 g.threadLocal

def start (settings : Settings) (logger : Log.Logger) (sources : List Source)
    (hasEvaluator : Bool) : Except Failure World :=
  let w : World := { settings, logger, sources, hasEvaluator }
  match (seedGlobals settings.globals).run w with
  | (.ok (), w) => .ok w
  | (.error f, _) => .error f

end World
end ScriptCore
