import VerifyServer.Socket.Budget
import VerifyServer.Reasoning.Fuel

/-!
# SaveFuel — the recursion of `SaveData` ends on every context

`saveData` takes the lengths of a context as they are and is only about contexts the server can
build.  Here every sum is an `int` that wraps, the fields of the context are arbitrary, and the
recursion has fuel; where no sum wraps the two agree.
-/

open VerifyServer.Reasoning

namespace VerifyServer.Socket

/-! ## 1. The function -/

/-- The value of a sum or a difference of `int`s. -/
def wrapInt (x : Int) : Int := x.bmod (2 ^ 32)

theorem wrapInt_eq {x : Int} (hlo : -2 ^ 31 ≤ x) (hhi : x < 2 ^ 31) : wrapInt x = x := by
  rw [wrapInt, Int.bmod_def]
  split <;> omega

theorem wrapInt_le {x : Int} (h : 0 ≤ x) : wrapInt x ≤ x := by
  rw [wrapInt, Int.bmod_def]
  split <;> omega

/-- `deliver` with the two sums of the source as `int`s. -/
def deliverInt (env : SaveEnv) (connID : UInt32) (pkt : List UInt8) (nDesLen : Int) :
    Except Fault (List Rev) :=
  let nLen := wrapInt (nDesLen - 15)
  if wrapInt (nLen + 1) < 0 then .error .badAlloc
  else
    match copyOut (some pkt) 10 nLen with
    | none => .error .badCopy
    | some payload =>
      let tmp := payload ++ [0]
      let nLen := env.multiByteToWideChar tmp
      .ok (if 0 < nLen ∧ env.hasRecevier then [⟨connID, tmp, nLen⟩] else [])

/-- The body of `CTcpServer::SaveData(pIo, pBuf, nLen)` with `nLen` the length of `pBuf`, and
`call` for the calls of itself. -/
def saveBody (env : SaveEnv) (call : IoContext → List UInt8 → Option Saved) (pIo : IoContext)
    (pBuf : List UInt8) : Option Saved :=
  if 0 < pIo.tmpHeadBuf.nLen then
    let nLen := wrapInt (pIo.tmpHeadBuf.nLen + pBuf.length)
    if nLen < 0 then some ⟨pIo, [], some .badAlloc⟩
    else
      match copyOut pIo.tmpHeadBuf.pBuf 0 pIo.tmpHeadBuf.nLen with
      | none => some ⟨pIo, [], some .badCopy⟩
      | some head =>
        match (blit (newChar nLen) 0 head).bind fun tmp =>
            blit tmp pIo.tmpHeadBuf.nLen.toNat pBuf with
        | none => some ⟨pIo, [], some .badCopy⟩
        | some tmp => call { pIo with tmpHeadBuf := {} } tmp
  else
    let nDesLeave := wrapInt (pIo.tmpBuf.nDesLen - pIo.tmpBuf.nCurLen)
    if nDesLeave = 0 then
      if 10 < pBuf.length then
        let nDesLen := getPacketLen pBuf
        if nDesLen = noPacket then some ⟨pIo, [], none⟩
        else if nDesLen < 0 then some ⟨{ pIo with tmpBuf.pBuf := none }, [], some .badAlloc⟩
        else call { pIo with tmpBuf := ⟨some (newChar nDesLen), nDesLen, 0⟩ } pBuf
      else some ⟨{ pIo with tmpHeadBuf := ⟨some pBuf, pBuf.length⟩ }, [], none⟩
    else if 0 < nDesLeave then
      if nDesLeave ≤ pBuf.length then
        match fill pIo.tmpBuf (pBuf.take nDesLeave.toNat) with
        | none => some ⟨pIo, [], some .badCopy⟩
        | some pkt =>
          match deliverInt env pIo.connID pkt pIo.tmpBuf.nDesLen with
          | .error e => some ⟨pIo, [], some e⟩
          | .ok revs =>
            let rest := pBuf.drop nDesLeave.toNat
            if 0 < rest.length then
              (call { pIo with tmpBuf := {} } rest).map fun next =>
                { next with revs := revs ++ next.revs }
            else some ⟨{ pIo with tmpBuf := {} }, revs, none⟩
      else
        match fill pIo.tmpBuf pBuf with
        | none => some ⟨pIo, [], some .badCopy⟩
        | some bs =>
          some ⟨{ pIo with tmpBuf := { pIo.tmpBuf with
            pBuf := some bs, nCurLen := wrapInt (pIo.tmpBuf.nCurLen + pBuf.length) } }, [], none⟩
    else some ⟨pIo, [], none⟩

/-- `CTcpServer::SaveData`; no result when the call is still running `fuel` activations deep. -/
def saveDataFuel (env : SaveEnv) : Nat → IoContext → List UInt8 → Option Saved
  | 0 => fun _ _ => none
  | fuel + 1 => saveBody env (saveDataFuel env fuel)

/-! ## 2. The measure -/

/-- A pending head is merged first, then the packet's length is read, then bytes are consumed. -/
def stage (pIo : IoContext) : Nat :=
  if 0 < pIo.tmpHeadBuf.nLen then 2
  else if wrapInt (pIo.tmpBuf.nDesLen - pIo.tmpBuf.nCurLen) = 0 then 1 else 0

/-- The merge moves the saved bytes into the chunk, so the two are counted together; two
activations may pass before the next of these bytes is consumed. -/
def callBound (pIo : IoContext) (pBuf : List UInt8) : Nat :=
  2 * (pIo.tmpHeadBuf.nLen.toNat + pBuf.length) + stage pIo

theorem stage_noHead {pIo : IoContext} (h : ¬ 0 < pIo.tmpHeadBuf.nLen) : stage pIo ≤ 1 := by
  rw [stage, if_neg h]
  split <;> omega

theorem getPacketLen_lt (pBuf : List UInt8) : getPacketLen pBuf < 2 ^ 31 := by
  unfold getPacketLen
  split
  · decide
  · split
    · simp only []
      split
      · exact Int32.toInt_lt _
      · decide
    · decide

/-- The merged chunk is the head and the chunk behind it; the copies fit only if the sum of the
lengths did not wrap. -/
theorem merged_length {nHead : Int} {head pBuf tmp : List UInt8}
    (hpos : 0 < nHead)
    (h : ((blit (newChar (wrapInt (nHead + pBuf.length))) 0 head).bind fun tmp =>
      blit tmp nHead.toNat pBuf) = some tmp) : tmp.length = nHead.toNat + pBuf.length := by
  have ⟨d, hd, hout⟩ := Option.bind_eq_some_iff.mp h
  have hfits := blit_fits hout
  have hle : wrapInt (nHead + pBuf.length) ≤ nHead + pBuf.length := wrapInt_le (by omega)
  rw [blit_length hd, newChar, List.length_replicate] at hfits
  rw [blit_length hout, blit_length hd, newChar, List.length_replicate]
  omega

/-- The sums of a call stay inside an `int`. -/
structure FitsInt (pIo : IoContext) (pBuf : List UInt8) : Prop where
  sized : Sized pIo
  des : pIo.tmpBuf.nDesLen < 2 ^ 31
  merged : pIo.tmpHeadBuf.nLen + pBuf.length < 2 ^ 31

/-- One activation returns, or calls `SaveData` once with less to do. -/
def Proceeds (env : SaveEnv) (pIo : IoContext) (pBuf : List UInt8) : Prop :=
  (∃ r, ∀ call, saveBody env call pIo pBuf = some r) ∨
    ∃ ctx buf wrap, callBound ctx buf < callBound pIo pBuf ∧ (FitsInt pIo pBuf → FitsInt ctx buf) ∧
      ∀ call, saveBody env call pIo pBuf = (call ctx buf).map wrap

/-- A saved head joins the chunk: the bytes are the same, the stage is lower. -/
theorem proceeds_head (env : SaveEnv) {pIo : IoContext} (pBuf : List UInt8)
    (hhead : 0 < pIo.tmpHeadBuf.nLen) : Proceeds env pIo pBuf := by
  unfold Proceeds saveBody
  simp only [if_pos hhead]
  split
  · exact .inl ⟨_, fun _ => rfl⟩
  split
  · exact .inl ⟨_, fun _ => rfl⟩
  split
  · exact .inl ⟨_, fun _ => rfl⟩
  · next tmp hmerge =>
    have hlen := merged_length hhead hmerge
    apply Or.inr
    apply Exists.intro { pIo with tmpHeadBuf := {} }
    apply Exists.intro tmp
    apply Exists.intro id
    constructor
    · have hstage : stage { pIo with tmpHeadBuf := {} } ≤ 1 := stage_noHead (Int.lt_irrefl 0)
      have hfull : stage pIo = 2 := if_pos hhead
      simp only [callBound, hlen, hfull, Int.toNat_zero, Nat.zero_add]
      omega
    constructor
    · intro hfits
      have hsum := hfits.merged
      exact ⟨⟨Int.le_refl 0, hfits.sized.body⟩, hfits.des, by simp only; omega⟩
    · intro call
      rw [Option.map_id_fun, id]

/-- Between packets: the length of the next one is read, and the chunk stays as it is. -/
theorem proceeds_between (env : SaveEnv) {pIo : IoContext} (pBuf : List UInt8)
    (hhead : ¬ 0 < pIo.tmpHeadBuf.nLen)
    (hzero : wrapInt (pIo.tmpBuf.nDesLen - pIo.tmpBuf.nCurLen) = 0) : Proceeds env pIo pBuf := by
  unfold Proceeds saveBody
  simp only [if_neg hhead, if_pos hzero]
  split
  · split
    · exact .inl ⟨_, fun _ => rfl⟩
    split
    · exact .inl ⟨_, fun _ => rfl⟩
    · next hneg =>
      have hrange := getPacketLen_range pBuf
      have hlt := getPacketLen_lt pBuf
      apply Or.inr
      apply Exists.intro { pIo with tmpBuf :=
        ⟨some (newChar (getPacketLen pBuf)), getPacketLen pBuf, 0⟩ }
      apply Exists.intro pBuf
      apply Exists.intro id
      constructor
      · have hlast : stage { pIo with tmpBuf :=
            ⟨some (newChar (getPacketLen pBuf)), getPacketLen pBuf, 0⟩ } = 0 := by
          rw [stage, if_neg hhead]
          simp only [Int.sub_zero]
          rw [wrapInt_eq (by omega) hlt, if_neg (by omega)]
        have hone : stage pIo = 1 := by rw [stage, if_neg hhead, if_pos hzero]
        simp only [callBound, hlast, hone]
        omega
      constructor
      · intro hfits
        have h15 : 15 ≤ getPacketLen pBuf := by omega
        have hpos : 0 < getPacketLen pBuf := by omega
        exact ⟨⟨hfits.sized.head, .inr ⟨h15, Int.le_refl 0, hpos⟩⟩, hlt, hfits.merged⟩
      · intro call
        rw [Option.map_id_fun, id]
  · exact .inl ⟨_, fun _ => rfl⟩

/-- Inside a packet, a call that does not return has consumed at least one byte. -/
theorem proceeds_within (env : SaveEnv) {pIo : IoContext} (pBuf : List UInt8)
    (hhead : ¬ 0 < pIo.tmpHeadBuf.nLen)
    (hne : ¬ wrapInt (pIo.tmpBuf.nDesLen - pIo.tmpBuf.nCurLen) = 0) : Proceeds env pIo pBuf := by
  unfold Proceeds saveBody
  simp only [if_neg hhead, if_neg hne]
  split
  · split
    · split
      · exact .inl ⟨_, fun _ => rfl⟩
      split
      · exact .inl ⟨_, fun _ => rfl⟩
      split
      · next hpos hfits _ _ _ _ revs _ _ =>
        apply Or.inr
        apply Exists.intro { pIo with tmpBuf := {} }
        apply Exists.intro
          (pBuf.drop (wrapInt (pIo.tmpBuf.nDesLen - pIo.tmpBuf.nCurLen)).toNat)
        apply Exists.intro fun next => { next with revs := revs ++ next.revs }
        constructor
        · have hstage : stage { pIo with tmpBuf := {} } ≤ 1 := stage_noHead hhead
          have hlast : stage pIo = 0 := by rw [stage, if_neg hhead, if_neg hne]
          simp only [callBound, List.length_drop, hlast]
          omega
        constructor
        · intro hfits
          have hsum := hfits.merged
          have hdes : (0 : Int) < 2 ^ 31 := by decide
          exact ⟨⟨hfits.sized.head, .inl ⟨rfl, rfl⟩⟩, hdes,
            by rw [List.length_drop]; simp only; omega⟩
        · intro call
          rfl
      · exact .inl ⟨_, fun _ => rfl⟩
    · split
      · exact .inl ⟨_, fun _ => rfl⟩
      · exact .inl ⟨_, fun _ => rfl⟩
  · exact .inl ⟨_, fun _ => rfl⟩

theorem proceeds (env : SaveEnv) (pIo : IoContext) (pBuf : List UInt8) : Proceeds env pIo pBuf := by
  by_cases hhead : 0 < pIo.tmpHeadBuf.nLen
  · exact proceeds_head env pBuf hhead
  · by_cases hzero : wrapInt (pIo.tmpBuf.nDesLen - pIo.tmpBuf.nCurLen) = 0
    · exact proceeds_between env pBuf hhead hzero
    · exact proceeds_within env pBuf hhead hzero

/-- `SaveData` ends on every context and chunk, at most `callBound` activations deep. -/
theorem saveDataFuel_ends (env : SaveEnv) (pIo : IoContext) (pBuf : List UInt8) :
    ∃ r, ∀ fuel, callBound pIo pBuf < fuel → saveDataFuel env fuel pIo pBuf = some r := by
  have hactivation (s : IoContext × List UInt8) :
      Activation (fun fuel s => saveDataFuel env fuel s.1 s.2) (fun s => callBound s.1 s.2) s := by
    rcases proceeds env s.1 s.2 with ⟨r, hr⟩ | ⟨ctx, buf, wrap, hlt, _, hcall⟩
    · exact .inl ⟨r, fun fuel => hr (saveDataFuel env fuel)⟩
    · exact .inr ⟨(ctx, buf), wrap, hlt, fun fuel => hcall (saveDataFuel env fuel)⟩
  exact fuel_enough hactivation (pIo, pBuf)

/-! ## 3. Where no sum wraps -/

theorem deliverInt_eq (env : SaveEnv) (connID : UInt32) (pkt : List UInt8) {nDesLen : Int}
    (hlo : 15 ≤ nDesLen) (hhi : nDesLen < 2 ^ 31) :
    deliverInt env connID pkt nDesLen = deliver env connID pkt nDesLen := by
  have hlen : wrapInt (nDesLen - 15) = nDesLen - 15 := wrapInt_eq (by omega) (by omega)
  have hroom : wrapInt (nDesLen - 15 + 1) = nDesLen - 15 + 1 := wrapInt_eq (by omega) (by omega)
  simp only [deliverInt, hlen, hroom]
  rfl

theorem merged_eq {head pBuf : List UInt8} {nHead : Int} (hlen : head.length = nHead.toNat)
    (hpos : 0 < nHead) :
    ((blit (newChar (nHead + pBuf.length)) 0 head).bind fun tmp => blit tmp nHead.toNat pBuf) =
      some (head ++ pBuf) := by
  have hnew : (newChar (nHead + pBuf.length)).length = head.length + pBuf.length := by
    rw [newChar, List.length_replicate]
    omega
  rw [← hlen, blit_eq_some (by omega), Option.bind_some, List.take_zero, List.nil_append,
    Nat.zero_add, blit_eq_some (by simp only [List.length_append, List.length_drop]; omega),
    List.take_left' rfl, List.drop_eq_nil_of_le, List.append_nil]
  simp only [List.length_append, List.length_drop]
  omega

/-- Inside the range of an `int`, `saveData` does what the body says. -/
theorem saveBody_saveData (env : SaveEnv) {pIo : IoContext} {pBuf : List UInt8}
    (h : FitsInt pIo pBuf) :
    saveBody env (fun ctx buf => some (saveData env ctx buf)) pIo pBuf =
      some (saveData env pIo pBuf) := by
  have hbody := h.sized.body
  have hdes := h.des
  have hmerged := h.merged
  rw [saveData, saveBody]
  by_cases hhead : 0 < pIo.tmpHeadBuf.nLen
  · rw [if_pos hhead, if_pos hhead]
    simp only
    rw [wrapInt_eq (by omega) hmerged, if_neg (by omega)]
    cases hcopy : copyOut pIo.tmpHeadBuf.pBuf 0 pIo.tmpHeadBuf.nLen with
    | none => rfl
    | some head =>
      simp only
      rw [merged_eq (copyOut_length hcopy) hhead]
  · rw [if_neg hhead, if_neg hhead]
    simp only
    rw [wrapInt_eq (x := pIo.tmpBuf.nDesLen - _) (by omega) (by omega)]
    by_cases hzero : pIo.tmpBuf.nDesLen - pIo.tmpBuf.nCurLen = 0
    · rw [if_pos hzero, if_pos hzero]
      by_cases hlong : 10 < pBuf.length
      · rw [if_pos hlong, if_pos hlong]
        by_cases hsome : getPacketLen pBuf = noPacket
        · rw [if_pos hsome, if_pos hsome]
        · rw [if_neg hsome, if_neg hsome]
          by_cases hneg : getPacketLen pBuf < 0
          · rw [if_pos hneg, if_pos hneg]
          · rw [if_neg hneg, if_neg hneg]
      · rw [if_neg hlong, if_neg hlong]
    · have hpos : 0 < pIo.tmpBuf.nDesLen - pIo.tmpBuf.nCurLen := by omega
      rw [if_neg hzero, if_neg hzero, if_pos hpos, if_pos hpos]
      by_cases hfit : pIo.tmpBuf.nDesLen - pIo.tmpBuf.nCurLen ≤ pBuf.length
      · rw [if_pos hfit, if_pos hfit]
        cases fill pIo.tmpBuf
            (pBuf.take (pIo.tmpBuf.nDesLen - pIo.tmpBuf.nCurLen).toNat) with
        | none => rfl
        | some pkt =>
          simp only
          rw [deliverInt_eq env pIo.connID pkt (by omega) hdes]
          cases deliver env pIo.connID pkt pIo.tmpBuf.nDesLen with
          | error e => rfl
          | ok revs =>
            simp only
            split
            · rfl
            · rfl
      · rw [if_neg hfit, if_neg hfit]
        cases fill pIo.tmpBuf pBuf with
        | none => rfl
        | some bs =>
          simp only
          rw [wrapInt_eq (by omega) (by omega)]

/-- With enough fuel the two functions agree. -/
theorem saveDataFuel_eq (env : SaveEnv) {pIo : IoContext} {pBuf : List UInt8}
    (h : FitsInt pIo pBuf) {fuel : Nat} (hfuel : callBound pIo pBuf < fuel) :
    saveDataFuel env fuel pIo pBuf = some (saveData env pIo pBuf) := by
  induction fuel generalizing pIo pBuf with
  | zero => exact absurd hfuel (Nat.not_lt_zero _)
  | succ fuel ih =>
    have hbody := saveBody_saveData env h
    rcases proceeds env pIo pBuf with ⟨r, hr⟩ | ⟨ctx, buf, wrap, hlt, hfits, hcall⟩
    · rw [saveDataFuel, hr, ← hbody, hr]
    · rw [saveDataFuel, hcall, ih (hfits h) (by omega), ← hbody, hcall]

end VerifyServer.Socket
