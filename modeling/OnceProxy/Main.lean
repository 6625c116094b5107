/-
The command line of the key tool.
-/
import OnceProxy.KeyTool.Command
import Std.Time.DateTime.Timestamp

open OnceProxy

/-- A key of random octets. Nearly all octet strings of its length are keys. -/
partial def freshSigner : IO Signer := do
  let octets ← IO.getRandomBytes 32
  match Signer.ofPrivateKey (Text.Hex.encode octets.toList) with
  | .ok signer => return signer
  | .error _ => freshSigner

/-- The second it is, counted from the epoch. -/
def currentSecond : IO UInt64 := do
  let now ← Std.Time.Timestamp.now
  return UInt64.ofNat now.toSecondsSinceUnixEpoch.val.toNat

/-- Runs the key tool. -/
def main (args : List String) : IO UInt32 := do
  let environment ← IO.getEnv Signing.keyVariable
  match KeyTool.run environment (← currentSecond) (← freshSigner) args with
  | .ok report =>
    (← IO.getStdout).putStr report.render
    return 0
  | .error failure =>
    (← IO.getStderr).putStrLn ("error: " ++ failure.message)
    return failure.exitCode
