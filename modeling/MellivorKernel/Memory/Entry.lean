import MellivorKernel.Python.DateTime
import MellivorKernel.Python.Value
import Mathlib.Data.Finset.Sort

/-!
# Memory entries

`MemoryEntry` of `memory/entry.py`: a record whose id and content are not
blank, as its constructor checks.
-/

namespace MellivorKernel

open Python

structure MemoryEntry where
  id : Str
  content : Str
  tags : Finset Str
  metadata : Mapping
  createdAt : DateTime
  id_ok : blank id = false
  content_ok : blank content = false

/-- `MemoryEntry(...)` with its `__post_init__`. -/
def MemoryEntry.new (id content : Str) (tags : Finset Str) (metadata : Mapping)
    (createdAt : DateTime) : Except Exn MemoryEntry :=
  if hi : blank id = false then
    if hc : blank content = false then
      .ok { id, content, tags, metadata, createdAt, id_ok := hi, content_ok := hc }
    else .error (.raised .memoryError (lit "MemoryEntry.content must not be blank."))
  else .error (.raised .memoryError (lit "MemoryEntry.id must not be blank."))

theorem MemoryEntry.new_ok {id content : Str} {tags : Finset Str} {metadata : Mapping}
    {createdAt : DateTime} (hi : blank id = false) (hc : blank content = false) :
    MemoryEntry.new id content tags metadata createdAt =
      .ok { id, content, tags, metadata, createdAt, id_ok := hi, content_ok := hc } := by
  rw [MemoryEntry.new, dif_pos hi, dif_pos hc]

end MellivorKernel
