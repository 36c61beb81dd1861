/-
  Firmware: a register file with prepared answers. A queue of values belongs to an address;
  before each read of that address every queue of it gives up its front, which the register then
  holds. An empty queue leaves the register as it is.
-/
import Firmware.Registers.Recorded

namespace Firmware

/-- Values still to be answered for one address. -/
structure AnswerQueue where
  address : UInt64
  values : List UInt32

/-- A register file and the answers prepared for its reads, in the order they were added. -/
structure QueuedFile where
  file : RegisterFile := RegisterFile.empty
  queues : List AnswerQueue := []

namespace QueuedFile

/-- Prepares answers for the next reads of an address. -/
def prepare (queued : QueuedFile) (address : UInt64) (values : List UInt32) : QueuedFile :=
  { queued with queues := queued.queues ++ [⟨address, values⟩] }

/-- Lets each queue of the address give up its front; the last one to do so decides. -/
def settle (address : UInt64) : List AnswerQueue → RegisterFile → List AnswerQueue × RegisterFile
  | [], file => ([], file)
  | queue :: rest, file =>
    if queue.address = address then
      match queue.values with
      | [] =>
        let (rest, file) := settle address rest file
        (queue :: rest, file)
      | value :: values =>
        let (rest, file) := settle address rest (file.preset address value)
        ({ queue with values } :: rest, file)
    else
      let (rest, file) := settle address rest file
      (queue :: rest, file)

def registers : Registers QueuedFile where
  read address queued :=
    let (queues, file) := settle address queued.queues queued.file
    let (value, file) := RegisterFile.registers.read address file
    (value, { queues, file })
  write address value queued :=
    { queued with file := RegisterFile.registers.write address value queued.file }

end QueuedFile

end Firmware
