import Decommission.CommandLine.Report
import Decommission.Http.Relay

/-!
The program. Requests go to a relay on the standard streams, and a command that sends any prints
nothing else on standard output.
-/
namespace Decommission

/-- Asks the relay for a call, and waits for the line that answers it. -/
def askRelay (c : Http.Call) : IO (Http.Transport.Answer c) := do
  let output ← IO.getStdout
  output.putStrLn (Http.Relay.question c).write
  output.flush
  let line ← (← IO.getStdin).getLine
  return Http.Relay.answer line c

/-- Lets time pass, in whole milliseconds and a day at a time, and tells how much. -/
def letPass (length : Duration) : IO Duration := do
  let start ← IO.monoNanosNow
  let day := 24 * 60 * 60 * 1000
  let millis := (length.onTimer + 999999) / 1000000
  for _ in [0:millis / day] do
    IO.sleep day.toUInt32
  IO.sleep (millis % day).toUInt32
  return max length.onTimer ((← IO.monoNanosNow) - start)

/-- Carries a task out on the clock of the machine. Nothing asks it to stop. -/
def perform {α : Type} : Task Http.Transport α → IO (Option α)
  | .done a => return some a
  | .stalled => return none
  | .ask (.act c) next => do
    let answer ← askRelay c
    perform (next answer)
  | .ask (.actWithin limit c) next => do
    let start ← IO.monoNanosNow
    let answer ← askRelay c
    let elapsed := (← IO.monoNanosNow) - start
    perform (next (if elapsed ≤ limit then .finished elapsed answer else .expired))
  | .ask (.pause length) next => do
    discard (letPass length)
    perform (next ())
  | .ask (.rest length) next => do
    let elapsed ← letPass length
    perform (next (some elapsed))
  | .ask .stopRequested next => perform (next false)
  | .ask (.jitter bound) next => do
    let n ← IO.rand 0 bound
    perform (next ⟨n % max bound 1, Nat.mod_lt _ (by omega)⟩)

/-- The variables of the environment that the command line looks at. -/
def environment : IO (String → Option String) := do
  let values ← CommandLine.variableNames.mapM fun name => do return (name, ← IO.getEnv name)
  return fun name => (values.lookup name).join

end Decommission

open Decommission in
def main (arguments : List String) : IO UInt32 := do
  match ← perform (CommandLine.respond (← environment) arguments) with
  | none => return 2
  | some report =>
    IO.print report.out
    IO.eprint report.err
    return report.exit.toUInt32
