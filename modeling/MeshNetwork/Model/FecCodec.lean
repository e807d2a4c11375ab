import MeshNetwork.Model.Packet

/-!
# The forward error correction codec

`FecCodec` groups `k` datagrams, adds `m` parity datagrams computed over GF(2^8) and recovers
the `k` payloads from any `k` of the `k + m` frames. The tables, the encoding matrix, the wire
header, the encoder, the elimination decoder and the receive groups follow
`src/mesh/net/udp/FecCodec.cpp`.
-/

namespace MeshNetwork

/-! ## Arithmetic of GF(2^8) -/

structure GfTables where
  gfExp : List UInt8
  gfLog : List UInt8

/-- `x <<= 1; if (x & 0x100) x ^= 0x11D;` -/
def gfNext (x : UInt32) : UInt32 :=
  if (x <<< 1) &&& 0x100 != 0 then (x <<< 1) ^^^ 0x11D else x <<< 1

def gfTableStep (s : GfTables × UInt32) (i : Nat) : GfTables × UInt32 :=
  (⟨s.1.gfExp.set i s.2.toUInt8, s.1.gfLog.set s.2.toNat (UInt8.ofNat i)⟩, gfNext s.2)

/-- The two arrays before `build_gf_tables` fills them. -/
def gfTablesInit : GfTables := ⟨List.replicate 512 0, List.replicate 256 0⟩

/-- `gf_exp_[i] = gf_exp_[i - 255]` -/
def gfDoubleStep (e : List UInt8) (i : Nat) : List UInt8 := e.set i (e.getD (i - 255) 0)

/-- The exponential table is doubled so that `gfMul` needs no reduction of its index. -/
def buildGfTables : GfTables :=
  let t := ((List.range 255).foldl gfTableStep (gfTablesInit, 1)).1
  ⟨(List.range' 255 257).foldl gfDoubleStep t.gfExp, t.gfLog.set 0 0⟩

@[irreducible]
def gfExp (i : Nat) : UInt8 := buildGfTables.gfExp.getD i 0

@[irreducible]
def gfLog (a : UInt8) : Nat := (buildGfTables.gfLog.getD a.toNat 0).toNat

def gfMul (a b : UInt8) : UInt8 :=
  if a == 0 || b == 0 then 0 else gfExp (gfLog a + gfLog b)

def gfInv (a : UInt8) : UInt8 := gfExp (255 - gfLog a)

/-! ## Parameters and the encoding matrix -/

/-- The parameters that the constructor of `FecCodec` admits. -/
structure FecConfig where
  k : UInt8
  m : UInt8
  one_le_k : 1 ≤ k.toNat
  one_le_m : 1 ≤ m.toNat
  sum_le : k.toNat + m.toNat ≤ 254

/-- Number of data packets in a group. -/
def FecConfig.numData (cfg : FecConfig) : Nat := cfg.k.toNat

/-- Number of parity packets in a group. -/
def FecConfig.numRoots (cfg : FecConfig) : Nat := cfg.m.toNat

/-- The Cauchy matrix: `enc_[j][i] = 1 / (x_i XOR y_j)` with `x_i = i` and `y_j = k_ + j`. -/
def buildEncMatrix (cfg : FecConfig) : List (List UInt8) :=
  (List.range cfg.numRoots).map fun j => (List.range cfg.numData).map fun i =>
    gfInv (UInt8.ofNat i ^^^ UInt8.ofNat (cfg.numData + j))

/-! ## The wire header -/

def kHeaderSize : Nat := 14

def kMaxReceiveGroups : Nat := 256

structure FecHeader where
  groupId : UInt32
  seq : UInt8
  numData : UInt8
  numRoots : UInt8
  dataLen : UInt16
  deriving DecidableEq

def makeHeader (h : FecHeader) : Bytes :=
  [0x4D, 0x46, 0x45, 0x43, 1,
    ((h.groupId >>> 24) &&& 0xFF).toUInt8, ((h.groupId >>> 16) &&& 0xFF).toUInt8,
    ((h.groupId >>> 8) &&& 0xFF).toUInt8, (h.groupId &&& 0xFF).toUInt8,
    h.seq, h.numData, h.numRoots,
    ((h.dataLen >>> 8) &&& 0xFF).toUInt8, (h.dataLen &&& 0xFF).toUInt8]

def isFecFrame (datagram : Bytes) : Bool :=
  decide (kHeaderSize ≤ datagram.length) && datagram.getD 0 0 == 0x4D &&
    datagram.getD 1 0 == 0x46 &&
    datagram.getD 2 0 == 0x45 && datagram.getD 3 0 == 0x43 && datagram.getD 4 0 == 1

def frameConfig (datagram : Bytes) : Option (UInt8 × UInt8) :=
  if isFecFrame datagram then some (datagram.getD 10 0, datagram.getD 11 0) else none

def parseHeader (dg : Bytes) : Option FecHeader :=
  if dg.length < kHeaderSize then none
  else if !isFecFrame dg then none
  else some {
    groupId := ((dg.getD 5 0).toUInt32 <<< 24) ||| ((dg.getD 6 0).toUInt32 <<< 16) |||
      ((dg.getD 7 0).toUInt32 <<< 8) ||| (dg.getD 8 0).toUInt32
    seq := dg.getD 9 0
    numData := dg.getD 10 0
    numRoots := dg.getD 11 0
    dataLen := ((dg.getD 12 0).toUInt16 <<< 8) ||| (dg.getD 13 0).toUInt16 }

/-! ## Codec state -/

structure RecvGroup where
  k : UInt8 := 0
  m : UInt8 := 0
  slots : List (Option Bytes) := []
  dataLens : List UInt16 := []
  received : Nat := 0
  delivered : Bool := false

structure FecCodec where
  cfg : FecConfig
  sendGroupId : UInt32 := 0
  sendSeq : UInt8 := 0
  sendBuf : List Bytes := []
  sendLens : List UInt16 := []
  recvGroups : UMap UInt32 RecvGroup := ∅
  recvGroupOrder : List UInt32 := []

/-- The constructor `FecCodec(k, m)`. -/
def FecCodec.create (k m : UInt8) : Except String FecCodec :=
  if hk : k.toNat < 1 then .error "FecCodec requires at least one data packet per group"
  else if hm : m.toNat < 1 then .error "FecCodec requires at least one parity packet"
  else if hs : k.toNat + m.toNat > 254 then .error "FecCodec requires data packets + roots <= 254"
  else .ok { cfg := ⟨k, m, by omega, by omega, by omega⟩ }

/-! ## Encoding -/

/-- The length of the longest payload, as the first loop of `compute_parity` finds it. -/
def maxLen (data : List Bytes) : Nat := data.foldl (fun acc d => max acc d.length) 0

def computeParity (cfg : FecConfig) (data : List Bytes) : List Bytes :=
  (List.range cfg.numRoots).map fun j => (List.range cfg.numData).foldl (fun row i =>
    let coeff := ((buildEncMatrix cfg).getD j []).getD i 0
    row.mapIdx fun b v => v ^^^ gfMul coeff ((data.getD i []).getD b 0))
      (List.replicate (maxLen data) 0)

structure EncodeResult where
  dataFrame : Bytes
  parityFrames : List Bytes

/-- The length manifest that every parity payload starts with. -/
def lengthManifest (lens : List UInt16) : Bytes :=
  lens.flatMap fun (len : UInt16) => [((len >>> 8) &&& 0xFF).toUInt8, (len &&& 0xFF).toUInt8]

def parityFrame (cfg : FecConfig) (groupId : UInt32) (lens : List UInt16) (j : Nat) (row : Bytes) :
    Except String Bytes :=
  let parityPayload := lengthManifest lens ++ row
  if parityPayload.length > 65535 then
    .error "FEC parity payload is too large for the UDP FEC frame format"
  else .ok (makeHeader ⟨groupId, UInt8.ofNat (cfg.numData + j), cfg.k, cfg.m,
    UInt16.ofNat parityPayload.length⟩ ++ parityPayload)

/-- `FecCodec::encode`; an exception leaves the state it found at the `throw`. -/
def FecCodec.encode (c : FecCodec) (payload : Bytes) : Except String EncodeResult × FecCodec :=
  if payload.length > 65535 - 2 * c.cfg.numData then
    (.error "FEC payload is too large for the UDP FEC frame format", c)
  else
    let plen := UInt16.ofNat payload.length
    let dataFrame := makeHeader ⟨c.sendGroupId, c.sendSeq, c.cfg.k, c.cfg.m, plen⟩ ++ payload
    let c := { c with
      sendBuf := c.sendBuf ++ [payload], sendLens := c.sendLens ++ [plen],
        sendSeq := c.sendSeq + 1 }
    if c.sendSeq == c.cfg.k then
      let rows := computeParity c.cfg c.sendBuf
      match (List.range c.cfg.numRoots).mapM
          (fun j => parityFrame c.cfg c.sendGroupId c.sendLens j (rows.getD j [])) with
      | .error e => (.error e, c)
      | .ok parityFrames => (.ok ⟨dataFrame, parityFrames⟩,
          { c with sendGroupId := c.sendGroupId + 1, sendSeq := 0, sendBuf := [], sendLens := [] })
    else (.ok ⟨dataFrame, []⟩, c)

/-! ## Elimination -/

def matrixEntry (M : List Bytes) (row col : Nat) : UInt8 := (M.getD row []).getD col 0

def swapRows (M : List Bytes) (i j : Nat) : List Bytes :=
  (M.set i (M.getD j [])).set j (M.getD i [])

/-- Scales the entries of row `row` from index `start` on, up to `stop`. -/
def scaleRow (M : List Bytes) (row start stop : Nat) (scale : UInt8) : List Bytes :=
  M.set row ((M.getD row []).mapIdx fun c v => if start ≤ c ∧ c < stop then gfMul v scale else v)

/-- `A[row][c] ^= gf_mul(factor, A[col][c])` for every row other than `col` whose factor
`M[row][col]` is nonzero and for `c` from `start` up to `stop`. -/
def eliminateRows (M A : List Bytes) (col start stop : Nat) : List Bytes :=
  A.mapIdx fun row r =>
    if row = col ∨ matrixEntry M row col = 0 then r
    else r.mapIdx fun c v =>
      if start ≤ c ∧ c < stop then v ^^^ gfMul (matrixEntry M row col) (matrixEntry A col c) else v

/-- One round of the elimination loop; `none` is the singular case. -/
def eliminateColumn (k symbolLen : Nat) (s : List Bytes × List Bytes) (col : Nat) :
    Option (List Bytes × List Bytes) :=
  match (List.range' col (k - col)).find? (fun row => matrixEntry s.1 row col != 0) with
  | none => none
  | some pivot =>
    let M := if pivot ≠ col then swapRows s.1 col pivot else s.1
    let B := if pivot ≠ col then swapRows s.2 col pivot else s.2
    let scale := gfInv (matrixEntry M col col)
    let M := scaleRow M col col k scale
    let B := scaleRow B col 0 symbolLen scale
    some (eliminateRows M M col col k, eliminateRows M B col 0 symbolLen)

/-- The rows of the full encoding matrix for the received indices. -/
def decodeMatrix (cfg : FecConfig) (receivedIndices : List Nat) : List Bytes :=
  (List.range cfg.numData).map fun row =>
    let idx := receivedIndices.getD row 0
    if idx < cfg.numData then (List.replicate cfg.numData 0).set idx 1
    else (buildEncMatrix cfg).getD (idx - cfg.numData) []

def gaussDecode (cfg : FecConfig) (receivedIndices : List Nat) (receivedData : List Bytes)
    (symbolLen : Nat) : List Bytes :=
  match (List.range cfg.numData).foldlM (eliminateColumn cfg.numData symbolLen)
      (decodeMatrix cfg receivedIndices, receivedData) with
  | none => []
  | some (_, B) => B

/-! ## Decoding -/

/-- `std::vector::resize`. -/
def resizeList {α : Type} (l : List α) (n : Nat) (d : α) : List α :=
  l.take n ++ List.replicate (n - l.length) d

/-- The `while` loop of `remember_receive_group`. -/
def evictStale (groupId : UInt32) :
    List UInt32 → UMap UInt32 RecvGroup → List UInt32 × UMap UInt32 RecvGroup
  | [], groups => ([], groups)
  | stale :: rest, groups =>
    if (stale :: rest).length > kMaxReceiveGroups then
      evictStale groupId rest (if stale ≠ groupId then groups.erase stale else groups)
    else (stale :: rest, groups)

def FecCodec.rememberReceiveGroup (c : FecCodec) (groupId : UInt32) : FecCodec :=
  let s := evictStale groupId (c.recvGroupOrder ++ [groupId]) c.recvGroups
  { c with recvGroupOrder := s.1, recvGroups := s.2 }

/-- The filled slots of a group with their indices, in slot order. -/
def RecvGroup.filled (group : RecvGroup) : List (Nat × Bytes) :=
  group.slots.zipIdx.filterMap fun s => s.1.map fun bytes => (s.2, bytes)

/-- Zero-pads a received packet to the symbol length. -/
def padTo (symbolLen : Nat) (s : Bytes) : Bytes := s ++ List.replicate (symbolLen - s.length) 0

def FecCodec.tryDeliver (c : FecCodec) (groupId : UInt32) : List Bytes × FecCodec :=
  match c.recvGroups.lookup groupId with
  | none => ([], c)
  | some group =>
    if group.delivered || decide (group.received < group.k.toNat) then ([], c)
    else
      let symbolLen := maxLen (group.filled.map Prod.snd)
      let taken := group.filled.take group.k.toNat
      let recovered := gaussDecode c.cfg (taken.map Prod.fst)
        (taken.map fun s => padTo symbolLen s.2)
        symbolLen
      if recovered.isEmpty then ([], c)
      else
        ((List.range group.k.toNat).map fun i =>
          (recovered.getD i []).take (min (group.dataLens.getD i 0).toNat
            (recovered.getD i []).length),
          { c with recvGroups := c.recvGroups.erase groupId })

/-- The length of data packet `i` announced by a parity payload. -/
def manifestLen (payload : Bytes) (i : Nat) : UInt16 :=
  ((payload.getD (2 * i) 0).toUInt16 <<< 8) ||| (payload.getD (2 * i + 1) 0).toUInt16

/-- The part of `decode` that runs once the group of the frame has been looked up. -/
def FecCodec.storeFrame (c : FecCodec) (group : RecvGroup) (h : FecHeader) (payload : Bytes) :
    List Bytes × FecCodec :=
  if h.seq ≥ UInt8.ofNat group.slots.length then ([], c)
  else if (group.slots.getD h.seq.toNat none).isSome then ([], c)
  else if h.seq ≥ h.numData then
    if payload.length < 2 * h.numData.toNat then ([], c)
    else
      let group := { group with
        dataLens := group.dataLens.mapIdx fun i len =>
          if i < h.numData.toNat then manifestLen payload i else len
        slots := group.slots.set h.seq.toNat (some (payload.drop (2 * h.numData.toNat)))
        received := group.received + 1 }
      { c with recvGroups := c.recvGroups.insert h.groupId group }.tryDeliver h.groupId
  else
    let group := { group with
      dataLens := group.dataLens.set h.seq.toNat h.dataLen
      slots := group.slots.set h.seq.toNat (some payload)
      received := group.received + 1 }
    { c with recvGroups := c.recvGroups.insert h.groupId group }.tryDeliver h.groupId

/-- `recv_groups_[group_id]` and the initialization of a group met for the first time. -/
def FecCodec.openGroup (c : FecCodec) (h : FecHeader) (group : RecvGroup) : FecCodec × RecvGroup :=
  if group.k == 0 then
    let group := { group with
      k := h.numData
      m := h.numRoots
      slots := resizeList group.slots (h.numData.toNat + h.numRoots.toNat) none
      dataLens := resizeList group.dataLens h.numData.toNat 0 }
    ({ c with recvGroups := c.recvGroups.insert h.groupId group }.rememberReceiveGroup
      h.groupId, group)
  else (c, group)

def FecCodec.decode (c : FecCodec) (datagram : Bytes) : List Bytes × FecCodec :=
  match parseHeader datagram with
  | none => ([], c)
  | some h =>
    if h.numData ≠ c.cfg.k ∨ h.numRoots ≠ c.cfg.m then ([], c)
    else if h.seq ≥ h.numData + h.numRoots then ([], c)
    else if datagram.length < kHeaderSize + h.dataLen.toNat then ([], c)
    else
      let payload := (datagram.drop kHeaderSize).take h.dataLen.toNat
      let group := (c.recvGroups.lookup h.groupId).getD {}
      let c := { c with recvGroups := c.recvGroups.insert h.groupId group }
      if group.delivered then ([], c)
      else
        let s := c.openGroup h group
        s.1.storeFrame s.2 h payload

/-! ## Runs -/

/-- The frames that a sequence of `encode` calls emits; a call that throws emits nothing. -/
def FecCodec.encodeAll (c : FecCodec) : List Bytes → List Bytes × FecCodec
  | [] => ([], c)
  | p :: ps =>
    match c.encode p with
    | (.ok r, c') => (r.dataFrame :: r.parityFrames ++ (c'.encodeAll ps).1, (c'.encodeAll ps).2)
    | (.error _, c') => c'.encodeAll ps

/-- The payloads that a sequence of `encode` calls puts into the group `groupId`, in order. -/
def FecCodec.encodedIn (c : FecCodec) (groupId : UInt32) : List Bytes → List Bytes
  | [] => []
  | p :: ps =>
    match c.encode p with
    | (.ok _, c') => (if c.sendGroupId = groupId then [p] else []) ++ c'.encodedIn groupId ps
    | (.error _, c') => c'.encodedIn groupId ps

/-- The results of a sequence of `decode` calls, one for each datagram. -/
def FecCodec.decodeAll (c : FecCodec) : List Bytes → List (List Bytes) × FecCodec
  | [] => ([], c)
  | dg :: dgs =>
    ((c.decode dg).1 :: ((c.decode dg).2.decodeAll dgs).1, ((c.decode dg).2.decodeAll dgs).2)

/-- The codecs that calls of `encode` and `decode` lead to. -/
inductive FecReachable (cfg : FecConfig) : FecCodec → Prop
  | create : FecReachable cfg { cfg := cfg }
  | encode {c : FecCodec} (payload : Bytes) : FecReachable cfg c →
      FecReachable cfg (c.encode payload).2
  | decode {c : FecCodec} (datagram : Bytes) : FecReachable cfg c →
      FecReachable cfg (c.decode datagram).2

end MeshNetwork
