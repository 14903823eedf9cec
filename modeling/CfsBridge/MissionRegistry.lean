import Mathlib.Data.Int.Notation

/-!
# Mission registry

Message IDs, function codes and the two name tables of `mission_registry.py`.
-/
namespace CfsBridge.MissionRegistry

namespace Mid

def toLabCmd : ℤ := 0x1880
def radiationApp : ℤ := 0x1882
def thermalApp : ℤ := 0x1883
def solarArrayApp : ℤ := 0x1890
def radAppTlm : ℤ := 0x0882
def thermAppTlm : ℤ := 0x0883
def toLabTlm : ℤ := 0x0880
def cfeEvsTlm : ℤ := 0x0808

end Mid

namespace Fc

def noop : ℤ := 0
def reset : ℤ := 1
def sendData : ℤ := 2
def solarArrayOpen : ℤ := 5
def solarArrayClose : ℤ := 6
def toLabOutputEnable : ℤ := 6

end Fc

/-- Lookup in a dict display: a repeated key keeps its last value. -/
def dictGet (entries : List (ℤ × String)) (key : ℤ) : Option String := entries.reverse.lookup key

/-- `MID_NAME`. -/
def midName : List (ℤ × String) := [
  (Mid.toLabCmd, "TO_LAB_CMD"),
  (Mid.radiationApp, "RADIATION_APP"),
  (Mid.thermalApp, "THERMAL_APP"),
  (Mid.solarArrayApp, "SOLAR_ARRAY_APP"),
  (Mid.radAppTlm, "RAD_APP_TLM"),
  (Mid.thermAppTlm, "THERM_APP_TLM"),
  (Mid.toLabTlm, "TO_LAB_TLM"),
  (Mid.cfeEvsTlm, "CFE_EVS_TLM")]

/-- `FC_NAME`; the registry gives two names to code 6. -/
def fcName : List (ℤ × String) := [
  (Fc.noop, "NOOP"),
  (Fc.reset, "RESET"),
  (Fc.sendData, "SEND_DATA"),
  (Fc.solarArrayOpen, "SOLAR_ARRAY_OPEN"),
  (Fc.solarArrayClose, "SOLAR_ARRAY_CLOSE"),
  (Fc.toLabOutputEnable, "TO_LAB_OUTPUT_ENABLE")]

end CfsBridge.MissionRegistry
