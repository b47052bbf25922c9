import VerifyServer.Socket.SaveData

/-!
# Buffers — what `SaveData` depends on

The two buffers of the context and the chunk decide what is delivered.  The connection id only goes
into the deliveries, and the other fields are left alone.
-/

open VerifyServer.Reasoning

namespace VerifyServer.Socket

/-! ## 1. The other fields -/

-- the buffers of one context under the other fields of another
def IoContext.withBuffers (pIo from_ : IoContext) : IoContext :=
  { pIo with tmpBuf := from_.tmpBuf, tmpHeadBuf := from_.tmpHeadBuf }

def relabel (connID : UInt32) (revs : List Rev) : List Rev :=
  revs.map fun rev => { rev with uSokcetID := connID }

def Saved.under (r : Saved) (pIo : IoContext) : Saved :=
  ⟨pIo.withBuffers r.ctx, relabel pIo.connID r.revs, r.fault⟩

theorem deliver_relabel (env : SaveEnv) (connID connID' : UInt32) (pkt : List UInt8)
    (nDesLen : Int) :
    deliver env connID' pkt nDesLen = (deliver env connID pkt nDesLen).map (relabel connID') := by
  unfold deliver
  simp only
  split
  · rfl
  · split
    · rfl
    · split <;> rfl

/-- Other fields around the same buffers: the same call, but for the id it delivers under. -/
theorem saveData_under (env : SaveEnv) (pIo : IoContext) (pBuf : List UInt8) (other : IoContext) :
    saveData env (other.withBuffers pIo) pBuf = (saveData env pIo pBuf).under other := by
  have hhead (x : IoContext) : (other.withBuffers x).tmpHeadBuf = x.tmpHeadBuf := rfl
  have hbody (x : IoContext) : (other.withBuffers x).tmpBuf = x.tmpBuf := rfl
  fun_induction saveData env pIo pBuf <;> conv_lhs => rw [saveData]
  case case1 pIo pBuf hpos hcopy =>
    rw [if_pos (by rwa [hhead])]
    split
    · rfl
    · next h => cases hcopy.symm.trans h
  case case2 pIo pBuf hpos head hcopy ih =>
    rw [if_pos (by rwa [hhead])]
    split
    · next h => cases hcopy.symm.trans h
    · next h =>
      rw [← Option.some.inj (hcopy.symm.trans h)]
      exact ih
  all_goals
    rw [if_neg (by rwa [hhead])]
    simp only [hbody]
  case case3 pIo pBuf _ nDesLeave hleave hlong nDesLen hpacket =>
    rw [if_pos (by exact hleave), if_pos hlong, if_pos (by exact hpacket)]
    rfl
  case case4 pIo pBuf _ nDesLeave hleave hlong nDesLen hpacket hneg =>
    rw [if_pos (by exact hleave), if_pos hlong, if_neg (by exact hpacket), if_pos (by exact hneg)]
    rfl
  case case5 pIo pBuf _ nDesLeave hleave hlong nDesLen hpacket hneg ih =>
    rw [if_pos (by exact hleave), if_pos hlong, if_neg (by exact hpacket), if_neg (by exact hneg)]
    exact ih
  case case6 pIo pBuf _ nDesLeave hleave hshort =>
    rw [if_pos (by exact hleave), if_neg hshort]
    rfl
  case case13 pIo pBuf _ nDesLeave hne hpos =>
    rw [if_neg (by exact hne), if_neg (by exact hpos)]
    rfl
  case case11 pIo pBuf _ nDesLeave hne hpos hfit hfill =>
    rw [if_neg (by exact hne), if_pos (by exact hpos), if_neg (by exact hfit), hfill]
    rfl
  case case12 pIo pBuf _ nDesLeave hne hpos hfit bs hfill =>
    rw [if_neg (by exact hne), if_pos (by exact hpos), if_neg (by exact hfit), hfill]
    rfl
  case case7 pIo pBuf _ nDesLeave hne hpos hfit hfill =>
    rw [if_neg (by exact hne), if_pos (by exact hpos), if_pos (by exact hfit), hfill]
    rfl
  case case8 pIo pBuf _ nDesLeave hne hpos hfit pkt hfill e hdeliver =>
    rw [if_neg (by exact hne), if_pos (by exact hpos), if_pos (by exact hfit), hfill]
    dsimp only
    rw [deliver_relabel env pIo.connID, hdeliver]
    rfl
  case case9 pIo pBuf _ nDesLeave hne hpos hfit pkt hfill revs hdeliver rest hrest next ih =>
    rw [if_neg (by exact hne), if_pos (by exact hpos), if_pos (by exact hfit), hfill]
    have hnext : saveData env { other.withBuffers pIo with tmpBuf := {} } rest = next.under other := ih
    dsimp only
    rw [deliver_relabel env pIo.connID, hdeliver]
    refine (if_pos hrest).trans ?_
    rw [hnext]
    simp only [Saved.under, relabel, List.map_append]
    rfl
  case case10 pIo pBuf _ nDesLeave hne hpos hfit pkt hfill revs hdeliver rest hrest =>
    rw [if_neg (by exact hne), if_pos (by exact hpos), if_pos (by exact hfit), hfill]
    dsimp only
    rw [deliver_relabel env pIo.connID, hdeliver]
    exact if_neg hrest

theorem saveData_ctx (env : SaveEnv) (pIo : IoContext) (pBuf : List UInt8) :
    (saveData env pIo pBuf).ctx = pIo.withBuffers (saveData env pIo pBuf).ctx :=
  congrArg Saved.ctx (saveData_under env pIo pBuf pIo)

/-- Every delivery is made under the id on the context. -/
theorem saveData_connID {env : SaveEnv} {pIo : IoContext} {pBuf : List UInt8} {rev : Rev}
    (h : rev ∈ (saveData env pIo pBuf).revs) : rev.uSokcetID = pIo.connID := by
  have hrevs : (saveData env pIo pBuf).revs = relabel pIo.connID (saveData env pIo pBuf).revs :=
    congrArg Saved.revs (saveData_under env pIo pBuf pIo)
  rw [hrevs, relabel] at h
  obtain ⟨_, -, rfl⟩ := List.mem_map.mp h
  rfl

/-! ## 2. Chunk after chunk -/

/-- The payloads a connection's chunks make, met with nothing held. -/
def payloads (env : SaveEnv) (chunks : List (List UInt8)) : List (List UInt8) :=
  (saveChunks env {} chunks).revs.map Rev.rev_buf

/-- One more chunk, after chunks that left no fault. -/
theorem saveChunks_snoc {env : SaveEnv} {chunks : List (List UInt8)} {pIo : IoContext}
    (h : (saveChunks env pIo chunks).fault = none) (c : List UInt8) :
    saveChunks env pIo (chunks ++ [c]) =
      { saveData env (saveChunks env pIo chunks).ctx c with
        revs := (saveChunks env pIo chunks).revs ++
          (saveData env (saveChunks env pIo chunks).ctx c).revs } := by
  induction chunks generalizing pIo with
  | nil =>
    rw [List.nil_append, saveChunks]
    cases hfault : (saveData env pIo c).fault with
    | none => simp only [hfault, saveChunks, List.append_nil, List.nil_append]
    | some e => simp only [hfault, saveChunks, List.nil_append]
  | cons d chunks ih =>
    rw [saveChunks] at h ⊢
    cases hfault : (saveData env pIo d).fault with
    | none =>
      rw [hfault] at h
      simp only [List.cons_append, saveChunks, hfault, ih h, List.append_assoc]
    | some e =>
      rw [hfault] at h
      cases h

/-- A context whose buffers are those the chunks leave: one more chunk there, whatever the other
fields are. -/
theorem saveData_after {env : SaveEnv} {chunks : List (List UInt8)} {pIo : IoContext}
    (hfault : (saveChunks env {} chunks).fault = none)
    (hbuf : pIo = pIo.withBuffers (saveChunks env {} chunks).ctx) (c : List UInt8) :
    payloads env (chunks ++ [c]) =
        payloads env chunks ++ (saveData env pIo c).revs.map Rev.rev_buf ∧
      (saveData env pIo c).fault = (saveChunks env {} (chunks ++ [c])).fault ∧
      (saveData env pIo c).ctx = pIo.withBuffers (saveChunks env {} (chunks ++ [c])).ctx := by
  have hunder := saveData_under env (saveChunks env {} chunks).ctx c pIo
  rw [← hbuf] at hunder
  rw [payloads, saveChunks_snoc hfault, hunder]
  refine ⟨?_, rfl, rfl⟩
  simp only [Saved.under, relabel, payloads, List.map_append, List.map_map, Function.comp_def]

end VerifyServer.Socket
