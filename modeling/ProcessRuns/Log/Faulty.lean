import ProcessRuns.Log.Storage

/-! # Storages that fail

A storage of which some operations are switched off: such a call fails before it does anything. -/

namespace ProcessRuns

/-- A storage of which some operations fail. -/
structure Faulty (σ : Type) where
  storage : σ
  /-- The operations that fail. -/
  failing : List StorageCall := []

namespace Faulty

variable {σ α : Type}

/-- The operation of the storage inside, unless it is switched off. -/
def guarded (call : StorageCall) (a : Action σ α) : Action (Faulty σ) α := fun s =>
  if call ∈ s.failing then (.error (.injected call), s)
  else a.within (·.storage) (fun storage s => { s with storage }) s

instance [Storage σ] : Storage (Faulty σ) where
  init table := guarded .init (Storage.init table)
  insertRegister table processId status now :=
    guarded .insertRegister (Storage.insertRegister table processId status now)
  updateResult table id status dataTimestamp now :=
    guarded .updateResult (Storage.updateResult table id status dataTimestamp now)
  insertMessage table id type description now :=
    guarded .insertMessage (Storage.insertMessage table id type description now)
  appendValue table id tag value := guarded .appendValue (Storage.appendValue table id tag value)
  maxLastProcess table processId := guarded .maxLastProcess (Storage.maxLastProcess table processId)
  maxData table processId := guarded .maxData (Storage.maxData table processId)
  registers table processId offset limit := guarded .registers (Storage.registers table processId offset limit)
  messages table ids := guarded .messages (Storage.messages table ids)
  updateStatus table old new := guarded .updateStatus (Storage.updateStatus table old new)

end Faulty

end ProcessRuns
