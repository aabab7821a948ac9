import LogOrder.Program.Run

/-!
# The program

The program on a real machine: a host in `IO`, and the run.
-/

namespace LogOrder

/-- The cause of a failure that the operating system reports. -/
def IoFault.ofError : IO.Error → IoFault
  | .noFileOrDirectory .. => .notFound
  | .inappropriateType _ code details =>
    if code = 20 then .notDirectory
    else if code = 21 then .isDirectory
    else .other s!"{details} (os error {code})"
  | .resourceVanished code details =>
    if code = 32 then .brokenPipe else .other s!"{details} (os error {code})"
  | e => .other (toString e)

/-- An action, with the cause if it fails. -/
def attempt {α : Type} (act : IO α) : IO (Except IoFault α) := do
  match ← act.toBaseIO with
  | .ok a => return .ok a
  | .error e => return .error (.ofError e)

/-- Everything that a stream still holds. -/
def drain (read : IO ByteArray) : IO Source := do
  match ← attempt read with
  | .ok bytes => return .ofBytes bytes.data.toList
  | .error why => return { pieces := [], failure := some why }

/-- The bytes of a standard stream up to its end, in pieces. -/
partial def readToEnd (stream : IO.FS.Stream) (got : ByteArray) : IO ByteArray := do
  let piece ← stream.read 65536
  if piece.isEmpty then return got else readToEnd stream (got ++ piece)

instance : Host IO where
  -- the signal is off here and stays so; a write that nobody reads fails with its own cause
  quietHangups := return ()
  texts := return .bare
  environment name := IO.getEnv name
  present name := do
    match ← attempt (IO.FS.Handle.mk name .read) with
    | .error .notFound | .error .notDirectory => return false
    | _ => return true
  readFile name := attempt do
    return (← IO.FS.readBinFile name).data.toList
  openFile name := attempt do
    let handle ← IO.FS.Handle.mk name .read
    return drain handle.readBinToEnd
  standardInput := do
    drain (readToEnd (← IO.getStdin) .empty)
  createFile name := attempt do
    let handle ← IO.FS.Handle.mk name .write
    return fun bs => attempt do
      handle.write ⟨bs.toArray⟩
      handle.flush
  standardOutput bs := attempt do
    let out ← IO.getStdout
    out.write ⟨bs.toArray⟩
    out.flush
  standardError text := do
    (← IO.getStderr).putStr text

end LogOrder

/-- Runs the program with the given arguments. -/
def main (args : List String) : IO UInt32 := do
  let ending : LogOrder.Program.Ending ← LogOrder.Program.run args
  return ending.exitCode.toUInt32
