import MeshNetwork.Model.FecCodec

/-!
# The decoder with its accesses checked

`FecCodec::decode` once more, loop by loop as in `src/mesh/net/udp/FecCodec.cpp`, with a check at
every index into a datagram, a payload, a slot, a length or a matrix. `none` stands for an index
out of range, for `gf_inv(0)` and for the singular branch of `gauss_decode`.
-/

namespace MeshNetwork

/-! ## Accesses -/

def writeAt {α : Type} (l : List α) (i : Nat) (v : α) : Option (List α) :=
  if i < l.length then some (l.set i v) else none

/-- `std::string::substr`, which throws if `pos` lies behind the end. -/
def substrAt (s : Bytes) (pos len : Nat) : Option Bytes :=
  if pos ≤ s.length then some ((s.drop pos).take len) else none

/-- `std::copy` of `s` to the front of a vector of `symbol_len` zeros. -/
def copyPadded (symbolLen : Nat) (s : Bytes) : Option Bytes :=
  if s.length ≤ symbolLen then some (padTo symbolLen s) else none

def gfInvChecked (a : UInt8) : Option UInt8 := if a = 0 then none else some (gfInv a)

def entryAt (M : List Bytes) (row col : Nat) : Option UInt8 := do
  let r ← M[row]?
  r[col]?

def writeEntry (M : List Bytes) (row col : Nat) (v : UInt8) : Option (List Bytes) := do
  let r ← M[row]?
  let r ← writeAt r col v
  writeAt M row r

/-! ## The wire header -/

def isFecFrameChecked (dg : Bytes) : Option Bool :=
  if dg.length < kHeaderSize then some false
  else do
    let d0 : UInt8 ← dg[0]?
    let d1 : UInt8 ← dg[1]?
    let d2 : UInt8 ← dg[2]?
    let d3 : UInt8 ← dg[3]?
    let d4 : UInt8 ← dg[4]?
    some (d0 == 0x4D && d1 == 0x46 && d2 == 0x45 && d3 == 0x43 && d4 == 1)

def parseHeaderChecked (dg : Bytes) : Option (Option FecHeader) :=
  if dg.length < kHeaderSize then some none
  else do
    let fec ← isFecFrameChecked dg
    if !fec then some none
    else
      let d5 : UInt8 ← dg[5]?
      let d6 : UInt8 ← dg[6]?
      let d7 : UInt8 ← dg[7]?
      let d8 : UInt8 ← dg[8]?
      let d9 : UInt8 ← dg[9]?
      let d10 : UInt8 ← dg[10]?
      let d11 : UInt8 ← dg[11]?
      let d12 : UInt8 ← dg[12]?
      let d13 : UInt8 ← dg[13]?
      some (some {
        groupId :=
          (d5.toUInt32 <<< 24) ||| (d6.toUInt32 <<< 16) ||| (d7.toUInt32 <<< 8) ||| d8.toUInt32
        seq := d9
        numData := d10
        numRoots := d11
        dataLen := (d12.toUInt16 <<< 8) ||| d13.toUInt16 })

/-! ## Elimination -/

/-- `M[row][idx] = 1` or `M[row] = enc_[idx - k]`. -/
def fillRow (cfg : FecConfig) (indices : List Nat) (M : List Bytes) (row : Nat) :
    Option (List Bytes) := do
  let idx ← indices[row]?
  if idx < cfg.numData then writeEntry M row idx 1
  else
    let r ← (buildEncMatrix cfg)[idx - cfg.numData]?
    writeAt M row r

/-- `A[row][c] = f(A, c, A[row][c])` for `c` from `start` up to `stop`. -/
def updateRow (A : List Bytes) (row start stop : Nat)
    (f : List Bytes → Nat → UInt8 → Option UInt8) :
    Option (List Bytes) :=
  (List.range' start (stop - start)).foldlM (fun A c => do
    let v ← entryAt A row c
    let v ← f A c v
    writeEntry A row c v) A

/-- The search for a pivot; no pivot is the singular branch. -/
def findPivot (M : List Bytes) (col : Nat) : List Nat → Option Nat
  | [] => none
  | row :: rows => do
    let v ← entryAt M row col
    if v ≠ 0 then some row else findPivot M col rows

def swapChecked (M : List Bytes) (i j : Nat) : Option (List Bytes) := do
  let ri ← M[i]?
  let rj ← M[j]?
  let M ← writeAt M i rj
  writeAt M j ri

def swapPivot (M : List Bytes) (col pivot : Nat) : Option (List Bytes) :=
  if pivot ≠ col then swapChecked M col pivot else some M

/-- One row of the loop that clears column `col`. -/
def clearRow (k symbolLen col : Nat) (s : List Bytes × List Bytes) (row : Nat) :
    Option (List Bytes × List Bytes) :=
  if row = col then some s
  else do
    let factor ← entryAt s.1 row col
    if factor = 0 then some s
    else
      let addScaled : List Bytes → Nat → UInt8 → Option UInt8 := fun A c v => do
        let p ← entryAt A col c
        some (v ^^^ gfMul factor p)
      let M ← updateRow s.1 row col k addScaled
      let B ← updateRow s.2 row 0 symbolLen addScaled
      some (M, B)

def eliminateChecked (k symbolLen : Nat) (s : List Bytes × List Bytes) (col : Nat) :
    Option (List Bytes × List Bytes) := do
  let pivot ← findPivot s.1 col (List.range' col (k - col))
  let M ← swapPivot s.1 col pivot
  let B ← swapPivot s.2 col pivot
  let p ← entryAt M col col
  let scale ← gfInvChecked p
  let M ← updateRow M col col k fun _ _ v => some (gfMul v scale)
  let B ← updateRow B col 0 symbolLen fun _ _ v => some (gfMul v scale)
  (List.range k).foldlM (clearRow k symbolLen col) (M, B)

def gaussDecodeChecked (cfg : FecConfig) (receivedIndices : List Nat) (receivedData : List Bytes)
    (symbolLen : Nat) : Option (List Bytes) := do
  let M ← (List.range cfg.numData).foldlM (fillRow cfg receivedIndices)
    (List.replicate cfg.numData (List.replicate cfg.numData 0))
  let s ← (List.range cfg.numData).foldlM (eliminateChecked cfg.numData symbolLen) (M, receivedData)
  some s.2

/-! ## Decoding -/

/-- The loop that finds the length of the longest slot. -/
def longestSlot (slots : List (Option Bytes)) (len i : Nat) : Option Nat := do
  let slot ← slots[i]?
  match slot with
  | none => some len
  | some s => some (max len s.length)

/-- The loop that collects the first `k` filled slots, zero-padded. -/
def collectSlot (slots : List (Option Bytes)) (k symbolLen : Nat) (acc : List (Nat × Bytes))
    (i : Nat) :
    Option (List (Nat × Bytes)) :=
  if acc.length < k then do
    let slot ← slots[i]?
    match slot with
    | none => some acc
    | some s =>
      let v ← copyPadded symbolLen s
      some (acc ++ [(i, v)])
  else some acc

def FecCodec.tryDeliverChecked (c : FecCodec) (groupId : UInt32) : Option (List Bytes × FecCodec) :=
  match c.recvGroups.lookup groupId with
  | none => some ([], c)
  | some group =>
    if group.delivered || decide (group.received < group.k.toNat) then some ([], c)
    else do
      let total := group.k.toNat + group.m.toNat
      let symbolLen ← (List.range total).foldlM (longestSlot group.slots) 0
      let taken ← (List.range total).foldlM (collectSlot group.slots group.k.toNat symbolLen) []
      let recovered ← gaussDecodeChecked c.cfg (taken.map Prod.fst) (taken.map Prod.snd) symbolLen
      if recovered.isEmpty then some ([], c)
      else
        let out ← (List.range group.k.toNat).mapM fun i => do
          let len ← group.dataLens[i]?
          let v ← recovered[i]?
          some (v.take (min len.toNat v.length))
        some (out, { c with recvGroups := c.recvGroups.erase groupId })

/-- `group.data_lens[i] = (payload[2 * i] << 8) | payload[2 * i + 1]` -/
def readLen (payload : Bytes) (lens : List UInt16) (i : Nat) : Option (List UInt16) := do
  let high : UInt8 ← payload[2 * i]?
  let low : UInt8 ← payload[2 * i + 1]?
  writeAt lens i ((high.toUInt16 <<< 8) ||| low.toUInt16)

def FecCodec.storeFrameChecked (c : FecCodec) (group : RecvGroup) (h : FecHeader)
    (payload : Bytes) :
    Option (List Bytes × FecCodec) :=
  if h.seq ≥ UInt8.ofNat group.slots.length then some ([], c)
  else do
    let slot ← group.slots[h.seq.toNat]?
    if slot.isSome then some ([], c)
    else if h.seq ≥ h.numData then
      if payload.length < 2 * h.numData.toNat then some ([], c)
      else
        let dataLens ← (List.range h.numData.toNat).foldlM (readLen payload) group.dataLens
        let parity ← substrAt payload (2 * h.numData.toNat) payload.length
        let slots ← writeAt group.slots h.seq.toNat (some parity)
        let group :=
          { group with dataLens := dataLens, slots := slots, received := group.received + 1 }
        { c with recvGroups := c.recvGroups.insert h.groupId group }.tryDeliverChecked h.groupId
    else
      let dataLens ← writeAt group.dataLens h.seq.toNat h.dataLen
      let slots ← writeAt group.slots h.seq.toNat (some payload)
      let group :=
        { group with dataLens := dataLens, slots := slots, received := group.received + 1 }
      { c with recvGroups := c.recvGroups.insert h.groupId group }.tryDeliverChecked h.groupId

def FecCodec.decodeChecked (c : FecCodec) (datagram : Bytes) : Option (List Bytes × FecCodec) := do
  let header ← parseHeaderChecked datagram
  match header with
  | none => some ([], c)
  | some h =>
    if h.numData ≠ c.cfg.k ∨ h.numRoots ≠ c.cfg.m then some ([], c)
    else if h.seq ≥ h.numData + h.numRoots then some ([], c)
    else if datagram.length < kHeaderSize + h.dataLen.toNat then some ([], c)
    else
      let payload ← substrAt datagram kHeaderSize h.dataLen.toNat
      let group := (c.recvGroups.lookup h.groupId).getD {}
      let c := { c with recvGroups := c.recvGroups.insert h.groupId group }
      if group.delivered then some ([], c)
      else
        let c := (c.openGroup h group).1
        -- the reference `group` must have outlived `remember_receive_group`
        let group ← c.recvGroups.lookup h.groupId
        c.storeFrameChecked group h payload

end MeshNetwork
