import TaskAutomation.Engine.Scan

/-!
# The worker

* `Worker.isScanning` : whether the worker scans at all;
* `Worker.turn` : one turn of its loop, a scan that may fail and does not end the loop.
-/

namespace TaskAutomation.Worker

open Program

/-- The worker scans from time to time. -/
def isScanning (e : Engine) : Bool := decide (0 < e.settings.scanInterval)

/-- One scan at this moment, if it does not fail. -/
def turn (e : Engine) : Program (Option Scan.Report) := do
  return (← attempt (Scan.all e (← now))).toOption

end TaskAutomation.Worker
