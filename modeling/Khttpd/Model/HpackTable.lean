import Mathlib.Data.Int.Notation
import Mathlib.Logic.Function.Basic
import Khttpd.Model.Frame

/-!
# The HPACK tables of a connection

`KHttp2Table.cpp`: the static table and the dynamic table `hpack`. The dynamic table is a ring
of pointers to entry objects (`entries`, indexed modulo `allocated`) over a wrapping byte
store of 4096 octets (`storage`, written at `pos`); an evicted entry object is used again for
a later insertion, so the ring and the objects are kept apart here as they are there.
-/

set_option autoImplicit false

namespace Khttpd

/-- `KGL_HTTP_V2_TABLE_SIZE`: the size of `hpack.storage` and the largest table size. -/
def tableStorageSize : ℕ := 4096

/-- `kgl_http_v2_static_table`. -/
def staticTable : List (Bytes × Bytes) :=
  [(":authority", ""), (":method", "GET"), (":method", "POST"), (":path", "/"),
   (":path", "/index.html"), (":scheme", "http"), (":scheme", "https"), (":status", "200"),
   (":status", "204"), (":status", "206"), (":status", "304"), (":status", "400"),
   (":status", "404"), (":status", "500"), ("accept-charset", ""),
   ("accept-encoding", "gzip, deflate"), ("accept-language", ""), ("accept-ranges", ""),
   ("accept", ""), ("access-control-allow-origin", ""), ("age", ""), ("allow", ""),
   ("authorization", ""), ("cache-control", ""), ("content-disposition", ""),
   ("content-encoding", ""), ("content-language", ""), ("content-length", ""),
   ("content-location", ""), ("content-range", ""), ("content-type", ""), ("cookie", ""),
   ("date", ""), ("etag", ""), ("expect", ""), ("expires", ""), ("from", ""), ("host", ""),
   ("if-match", ""), ("if-modified-since", ""), ("if-none-match", ""), ("if-range", ""),
   ("if-unmodified-since", ""), ("last-modified", ""), ("link", ""), ("location", ""),
   ("max-forwards", ""), ("proxy-authenticate", ""), ("proxy-authorization", ""),
   ("range", ""), ("referer", ""), ("refresh", ""), ("retry-after", ""), ("server", ""),
   ("set-cookie", ""), ("strict-transport-security", ""), ("transfer-encoding", ""),
   ("user-agent", ""), ("vary", ""), ("via", ""), ("www-authenticate", "")].map
    fun e => (kglString e.1, kglString e.2)

/-- `kgl_tolower` on one byte, also what `tolower` and `strcasecmp` do in the C locale. -/
def toLower (c : Byte) : Byte := if 65 ≤ c ∧ c ≤ 90 then c + 32 else c

/-- What `strcasecmp` compares: the bytes before the first NUL, in lower case. -/
def caseString (s : Bytes) : Bytes := (s.takeWhile (· ≠ 0)).map toLower

/-- `kgl_find_http2_static_table`: one more than the position of the first entry of that name,
`0` when there is none. -/
def findHttp2StaticTable (name : Bytes) : ℕ :=
  match staticTable.findIdx? fun e => caseString name == caseString e.1 with
  | some i => i + 1
  | none => 0

/-- An entry object of the dynamic table: `data` is the offset in `storage`, at most the
storage size itself. -/
structure HpackEntry where
  nameLen : ℕ
  nameData : ℕ
  valueLen : ℕ
  valueData : ℕ
  deriving DecidableEq, Repr

/-- `kgl_http_v2_hpack_t`. `entries` maps a slot of the ring to an entry object, `objects` is
the memory of those objects and `allocatedObjects` the number handed out by `kgl_palloc`. -/
structure Hpack where
  entries : Option (ℕ → ℕ)
  objects : ℕ → HpackEntry
  allocatedObjects : ℕ
  added : ℕ
  deleted : ℕ
  reused : ℕ
  allocated : ℕ
  size : ℕ
  free : ℕ
  storage : ℕ → Byte
  pos : ℕ

/-- `memset` of the connection object. -/
def Hpack.init : Hpack where
  entries := none
  objects := fun _ => ⟨0, 0, 0, 0⟩
  allocatedObjects := 0
  added := 0
  deleted := 0
  reused := 0
  allocated := 0
  size := 0
  free := 0
  storage := fun _ => 0
  pos := 0

/-- `hpack.entries[i % hpack.allocated]`. -/
def Hpack.slot (h : Hpack) (i : ℕ) : ℕ :=
  match h.entries with
  | none => 0
  | some entries => entries (i % h.allocated)

/-- `*hpack.entries[i % hpack.allocated]`. -/
def Hpack.entry (h : Hpack) (i : ℕ) : HpackEntry := h.objects (h.slot i)

/-- `kgl_memcpy(storage + off, data, data.length)`. -/
def memWrite (storage : ℕ → Byte) (off : ℕ) (data : Bytes) : ℕ → Byte := fun i =>
  if off ≤ i ∧ i < off + data.length then data.getD (i - off) 0 else storage i

/-- The `n` bytes at `storage + off`. -/
def memRead (storage : ℕ → Byte) (off n : ℕ) : Bytes :=
  (List.range n).map fun i => storage (off + i)

/-- How `get_indexed_header` copies a stored string: `rest` bytes up to the end of the
storage, the others from its start. -/
def Hpack.copyString (h : Hpack) (data len : ℕ) : Bytes :=
  let rest := tableStorageSize - data
  if len > rest then memRead h.storage data rest ++ memRead h.storage 0 (len - rest)
  else memRead h.storage data len

/-- `32 + entry->name.len + entry->value.len`. -/
def HpackEntry.cost (e : HpackEntry) : ℕ := 32 + e.nameLen + e.valueLen

/-- The eviction loops of `table_size` and `table_account`: drop the oldest entry while `more`
asks for it. The source loops on `hpack.deleted` alone; the fuel is the number of live
entries. -/
def Hpack.evict (more : ℕ → Bool) : ℕ → Hpack → Hpack
  | 0, h => h
  | fuel + 1, h =>
    if more h.free then
      Hpack.evict more fuel
        { h with deleted := h.deleted + 1, free := h.free + (h.entry h.deleted).cost }
    else h

/-- `KHttp2::table_size`; `none` is the `return false` of a size above the limit. -/
def Hpack.tableSize (h : Hpack) (size : ℕ) : Option Hpack :=
  if size > tableStorageSize then none
  else
    let needed : ℤ := (h.size : ℤ) - size
    let h := Hpack.evict (fun free => decide (needed > free)) (h.added - h.deleted) h
    some { h with size := size, free := (h.free - needed).toNat }

/-- `KHttp2::table_account`: make room for an entry of `size` octets of text; `false` when it
is larger than the whole table, which is then emptied. -/
def Hpack.tableAccount (h : Hpack) (size : ℕ) : Hpack × Bool :=
  let size := size + 32
  if size ≤ h.free then ({ h with free := h.free - size }, true)
  else if size > h.size then ({ h with deleted := h.added, free := h.size }, false)
  else
    let h := Hpack.evict (fun free => decide (size > free)) (h.added - h.deleted) h
    ({ h with free := h.free - size }, true)

/-- The lazy allocation at the head of `KHttp2::add_header`. -/
def Hpack.alloc (h : Hpack) : Hpack :=
  match h.entries with
  | some _ => h
  | none => { h with
      entries := some fun _ => 0
      allocated := 64
      size := tableStorageSize
      free := tableStorageSize
      pos := 0 }

/-- Copy one string to `hpack.pos`, wrapping once: the new storage and position. `avail` is
the room the source believes is left before the end. -/
def copyWrapped (storage : ℕ → Byte) (pos avail : ℕ) (data : Bytes) : (ℕ → Byte) × ℕ :=
  if avail ≥ data.length then (memWrite storage pos data, pos + data.length)
  else
    (memWrite (memWrite storage pos (data.take avail)) 0 (data.drop avail),
      data.length - avail)

/-- The tail of `KHttp2::add_header` that grows a full ring by 64 slots, oldest entry first. -/
def Hpack.grow (h : Hpack) : Hpack :=
  if h.allocated = h.added - h.deleted then
    let index := h.deleted % h.allocated
    { h with
      entries := h.entries.map fun old => fun i =>
        if i < h.allocated - index then old (index + i)
        else if i < h.allocated then old (i - (h.allocated - index)) else 0
      added := h.allocated
      deleted := 0
      reused := 0
      allocated := h.allocated + 64 }
  else h

/-- The entry object an insertion writes to: a fresh one, or the oldest evicted one. -/
def Hpack.takeObject (h : Hpack) : Hpack × ℕ :=
  if h.reused = h.deleted then
    ({ h with allocatedObjects := h.allocatedObjects + 1 }, h.allocatedObjects)
  else ({ h with reused := h.reused + 1 }, h.slot h.reused)

/-- `KHttp2::add_header(kgl_http_v2_header_t *)`: insert a pair in the dynamic table. -/
def Hpack.addHeader (h : Hpack) (name value : Bytes) : Hpack :=
  match h.alloc.tableAccount (name.length + value.length) with
  | (h, false) => h
  | (h, true) =>
    let (h, object) := h.takeObject
    let avail := tableStorageSize - h.pos
    let nameData := h.pos
    let (storage, pos) := copyWrapped h.storage h.pos avail name
    -- after a wrap the source restarts from the full size, below the room really left
    let avail := (if avail ≥ name.length then avail else tableStorageSize) - name.length
    let valueData := pos
    let (storage, pos) := copyWrapped storage pos avail value
    let h := { h with
      objects := Function.update h.objects object
        ⟨name.length, nameData, value.length, valueData⟩
      storage := storage
      pos := pos }
    let h := h.grow
    { h with
      entries := h.entries.map fun e => Function.update e (h.added % h.allocated) object
      added := h.added + 1 }

end Khttpd
