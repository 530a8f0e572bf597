import FlagCombat.Proofs.Battle.Attempt
import FlagCombat.Proofs.Battle.Touch

/-!
The scripts that a host has stopped. Nothing that is done for an agent stops one, and the end of a
battle stops the menu.
-/

namespace FlagCombat

/-- A reading of the hosts of a kind that tells which scripts were stopped, in order. -/
structure ScriptLog (H : Type) [Host H] where
  stopped : H → List String
  rayCast : ∀ h start finish mask, stopped (Host.rayCast h start finish mask).2 = stopped h
  setTransform : ∀ h agent pose, stopped (Host.setTransform h agent pose) = stopped h
  setAnimation : ∀ h agent name, stopped (Host.setAnimation h agent name) = stopped h
  setAnimationSpeed : ∀ h agent speed, stopped (Host.setAnimationSpeed h agent speed) = stopped h
  addSensor : ∀ h agent sensor, stopped (Host.addSensor h agent sensor) = stopped h
  senseChannels : ∀ h agent readings, stopped (Host.senseChannels h agent readings).2 = stopped h
  spawnAgent : ∀ h team group pose, stopped (Host.spawnAgent h team group pose).2 = stopped h
  despawnAgent : ∀ h agent, stopped (Host.despawnAgent h agent) = stopped h
  stopScript : ∀ h script, stopped (Host.stopScript h script) = stopped h ++ [script]

namespace ScriptLog

variable {H T : Type} [Host H]

theorem stopped_touched (log : ScriptLog H) {host host' : H} (h : Touched host host') :
    log.stopped host' = log.stopped host := by
  induction h with
  | refl => rfl
  | rayCast start finish mask _ ih => exact (log.rayCast ..).trans ih
  | setTransform agent pose _ ih => exact (log.setTransform ..).trans ih
  | setAnimation agent name _ ih => exact (log.setAnimation ..).trans ih
  | setAnimationSpeed agent speed _ ih => exact (log.setAnimationSpeed ..).trans ih
  | addSensor agent sensor _ ih => exact (log.addSensor ..).trans ih

theorem stopped_enroll (log : ScriptLog H) {b b' : Battle H T} {agent : Handle}
    (h : b.enroll agent = .ok b') : log.stopped b'.host = log.stopped b.host := by
  rcases Battle.enroll_cases h with ⟨c, -, -, rfl⟩ | ⟨-, rfl⟩ <;> rfl

theorem stopped_equip (log : ScriptLog H) (b : Battle H T) (agent : Handle) :
    log.stopped (b.equip agent).host = log.stopped b.host :=
  log.stopped_touched (Battle.touched_equip .refl agent)

/-- A call for an agent stops no script. -/
theorem stopped_attempt [Trainer T] (log : ScriptLog H) {b b' : Battle H T} {call : Call}
    {agent : Handle} {reply : Reply} (hh : call.handle? = some agent)
    (h : b.attempt call = .ok (reply, b')) : log.stopped b'.host = log.stopped b.host := by
  cases Battle.success_of_handle hh h with
  | @handle _ agent b₁ hh hrefusal henroll =>
    have htouched := Battle.touched_respond hh (Battle.contains_of_enroll henroll)
    exact (log.stopped_touched htouched).trans (log.stopped_enroll henroll)
  | beginTick | removeAgent | cleanup => cases hh

theorem stopped_cleanup (log : ScriptLog H) (b : Battle H T) :
    log.stopped b.cleanup.host = log.stopped b.host ++ [Host.menuScript] := log.stopScript ..

end ScriptLog

/-- A host that notes the scripts it stops. -/
structure NotedHost (H : Type) where
  host : H
  stopped : List String := []

namespace NotedHost

variable {H : Type} [Host H]

instance : Host (NotedHost H) where
  rayCast h start finish mask :=
    let (strikes, host) := Host.rayCast h.host start finish mask
    (strikes, { h with host })
  transform h agent := Host.transform h.host agent
  setTransform h agent pose := { h with host := Host.setTransform h.host agent pose }
  setAnimation h agent name := { h with host := Host.setAnimation h.host agent name }
  setAnimationSpeed h agent speed := { h with host := Host.setAnimationSpeed h.host agent speed }
  frameDelay h := Host.frameDelay h.host
  addSensor h agent sensor := { h with host := Host.addSensor h.host agent sensor }
  senseChannels h agent readings :=
    let (readings, host) := Host.senseChannels h.host agent readings
    (readings, { h with host })
  spawnAgent h team group pose :=
    let (id, host) := Host.spawnAgent h.host team group pose
    (id, { h with host })
  despawnAgent h agent := { h with host := Host.despawnAgent h.host agent }
  stopScript h script :=
    { host := Host.stopScript h.host script, stopped := h.stopped ++ [script] }

/-- The note of such a host is a log of its scripts. -/
def log : ScriptLog (NotedHost H) where
  stopped := NotedHost.stopped
  rayCast _ _ _ _ := rfl
  setTransform _ _ _ := rfl
  setAnimation _ _ _ := rfl
  setAnimationSpeed _ _ _ := rfl
  addSensor _ _ _ := rfl
  senseChannels _ _ _ := rfl
  spawnAgent _ _ _ _ := rfl
  despawnAgent _ _ := rfl
  stopScript _ _ := rfl

end NotedHost

end FlagCombat
