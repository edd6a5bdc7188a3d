/-! # Storage calls

The operations that a process log asks of its storage, by name. -/

namespace ProcessRuns

/-- What a storage can be asked for. -/
inductive StorageCall where
  | init
  | insertRegister
  | updateResult
  | insertMessage
  | appendValue
  | maxLastProcess
  | maxData
  | registers
  | messages
  | updateStatus
deriving DecidableEq, Repr

namespace StorageCall

/-- All operations. -/
def all : List StorageCall :=
  [init, insertRegister, updateResult, insertMessage, appendValue, maxLastProcess, maxData, registers, messages,
    updateStatus]

/-- The name that a refusal of the operation reports. -/
def name : StorageCall → String
  | init => "init"
  | insertRegister => "insert_register"
  | updateResult => "update_result"
  | insertMessage => "insert_message"
  | appendValue => "append_value"
  | maxLastProcess => "max_last_process_timestamp"
  | maxData => "max_data_timestamp"
  | registers => "registers"
  | messages => "messages"
  | updateStatus => "update_status"

/-- The operation of a name. -/
def ofName? (name : String) : Option StorageCall := all.find? fun c => c.name == name

end StorageCall

end ProcessRuns
