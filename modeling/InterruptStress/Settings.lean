import InterruptStress.Duration
import InterruptStress.Mode
import InterruptStress.Protocol.Basic

/-!
# Settings

What a worker and a controller are told before they start.
-/

namespace InterruptStress

/-- How a worker runs: so many iterations, each with one blocking sleep, and the pause of its
generator if it has one that pauses. -/
structure WorkerSettings where
  mode : Mode
  iterations : UInt32
  sleep : Duration
  pause : Duration
deriving DecidableEq

/-- How a controller drives its target. -/
structure ControllerSettings where
  mode : Mode
  /-- How often the watchdog looks. -/
  interval : Duration
  suspend : SuspendPolicy
  /-- The pause of the generator that interrupts through the channel. -/
  remotePause : Duration
  /-- How long a target that was told to exit may take to say so. -/
  exitGrace : Duration
deriving DecidableEq

/-- The grace of a target that was told to exit. -/
def defaultExitGrace : Duration := .ofMillis 5000

end InterruptStress
