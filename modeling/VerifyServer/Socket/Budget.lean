import VerifyServer.Socket.SaveData

/-!
# Budget — what `SaveData` delivers of an arbitrary stream

Nothing is assumed about the bytes here.  Every delivered payload has cost fifteen bytes more than
it is long, and these bytes were received before.
-/

open VerifyServer.Reasoning

namespace VerifyServer.Socket

/-- The lengths kept on a context agree: either no packet is open, or one of at least fifteen bytes
is, and some of its bytes are missing. -/
structure Sized (pIo : IoContext) : Prop where
  head : 0 ≤ pIo.tmpHeadBuf.nLen
  body : pIo.tmpBuf.nDesLen = 0 ∧ pIo.tmpBuf.nCurLen = 0 ∨
    15 ≤ pIo.tmpBuf.nDesLen ∧ 0 ≤ pIo.tmpBuf.nCurLen ∧ pIo.tmpBuf.nCurLen < pIo.tmpBuf.nDesLen

/-- The number of bytes a context holds back. -/
def held (pIo : IoContext) : Nat := pIo.tmpHeadBuf.nLen.toNat + pIo.tmpBuf.nCurLen.toNat

/-- The number of stream bytes the deliveries stand for: each buffer is a payload and a zero, each
payload came in a packet fifteen bytes longer. -/
def cost (revs : List Rev) : Nat := (revs.map fun r => r.rev_buf.length + 14).sum

theorem sized_of_clean {pIo : IoContext} (hc : pIo.Clean) : Sized pIo :=
  ⟨hc.1.ge, .inl hc.2⟩

theorem held_of_clean {pIo : IoContext} (hc : pIo.Clean) : held pIo = 0 := by
  rw [held, hc.1, hc.2.2]
  rfl

@[simp] theorem cost_nil : cost [] = 0 := rfl

@[simp] theorem cost_singleton (r : Rev) : cost [r] = r.rev_buf.length + 14 := by
  simp [cost]

@[simp] theorem cost_append (rs rs' : List Rev) : cost (rs ++ rs') = cost rs + cost rs' := by
  rw [cost, List.map_append, List.sum_append, cost, cost]

theorem deliver_cost {env : SaveEnv} {connID : UInt32} {pkt : List UInt8} {nDesLen : Int}
    {revs : List Rev} (hlen : 15 ≤ nDesLen)
    (h : deliver env connID pkt nDesLen = .ok revs) : cost revs ≤ nDesLen.toNat := by
  unfold deliver at h
  simp only at h
  split at h
  · cases h
  · split at h
    · cases h
    · next payload hcopy =>
      have hpayload := copyOut_length hcopy
      obtain rfl := Except.ok.inj h
      split
      · rw [cost_singleton, List.length_append, List.length_singleton]
        omega
      · rw [cost_nil]
        omega

/-- One call: the lengths stay in order unless the call faults, and what it delivers together with
what it holds back was held back before or came in. -/
theorem saveData_budget (env : SaveEnv) (pIo : IoContext) (pBuf : List UInt8) (hs : Sized pIo) :
    ((saveData env pIo pBuf).fault = none → Sized (saveData env pIo pBuf).ctx) ∧
      cost (saveData env pIo pBuf).revs + held (saveData env pIo pBuf).ctx ≤
        held pIo + pBuf.length := by
  fun_induction saveData env pIo pBuf
  case case1 | case7 | case8 | case11 => exact ⟨nofun, by simp only [cost_nil]; omega⟩
  case case2 pIo pBuf hpos head hcopy ih =>
    -- the pending head moves from the context into the bytes looked at
    have hlen := copyOut_length hcopy
    obtain ⟨hsized, hcost⟩ := ih ⟨le_refl _, hs.body⟩
    refine ⟨hsized, hcost.trans ?_⟩
    rw [List.length_append, held, held, hlen]
    simp only
    omega
  case case3 => exact ⟨fun _ => hs, by simp only [cost_nil]; omega⟩
  case case4 => exact ⟨nofun, by simp only [cost_nil, held]; omega⟩
  case case5 pIo pBuf hhead nDesLeave hleave hlong nDesLen hpacket hpos ih =>
    have hrange : nDesLen < 0 ∨ 15 ≤ nDesLen := getPacketLen_range pBuf
    have hlen : 15 ≤ nDesLen := by omega
    have hlt : 0 < nDesLen := by omega
    have hbody := hs.body
    obtain ⟨hsized, hcost⟩ := ih ⟨hs.head, .inr ⟨hlen, le_refl _, hlt⟩⟩
    refine ⟨hsized, hcost.trans ?_⟩
    simp only [held]
    omega
  case case6 pIo pBuf hhead nDesLeave hleave hshort =>
    have hbody := hs.body
    refine ⟨fun _ => ⟨Int.natCast_nonneg _, hs.body⟩, ?_⟩
    simp only [cost_nil, held]
    omega
  case case9 pIo pBuf hhead nDesLeave hne hpos hfit pkt hfill revs hdeliver rest hrest next ih =>
    have hbody := hs.body
    have hpacket := deliver_cost (by omega) hdeliver
    obtain ⟨hsized, hcost⟩ := ih ⟨hs.head, .inl ⟨rfl, rfl⟩⟩
    refine ⟨hsized, ?_⟩
    have hlen : rest.length = pBuf.length - nDesLeave.toNat := List.length_drop ..
    have hcost : cost next.revs + held next.ctx ≤
        pIo.tmpHeadBuf.nLen.toNat + 0 + rest.length := hcost
    have hheld : held pIo = pIo.tmpHeadBuf.nLen.toNat + pIo.tmpBuf.nCurLen.toNat := rfl
    simp only [cost_append]
    omega
  case case10 pIo pBuf hhead nDesLeave hne hpos hfit pkt hfill revs hdeliver rest hrest =>
    have hbody := hs.body
    have hpacket := deliver_cost (by omega) hdeliver
    refine ⟨fun _ => ⟨hs.head, .inl ⟨rfl, rfl⟩⟩, ?_⟩
    simp only [held]
    omega
  case case12 pIo pBuf hhead nDesLeave hne hpos hfit bs hfill =>
    have hbody := hs.body
    have hlen : 15 ≤ pIo.tmpBuf.nDesLen := by omega
    refine ⟨fun _ => ⟨hs.head, .inr ⟨hlen, ?_, ?_⟩⟩, ?_⟩
    · simp only
      omega
    · simp only
      omega
    · simp only [cost_nil, held]
      omega
  case case13 => exact ⟨fun _ => hs, by simp only [cost_nil]; omega⟩

/-- The chunks of a connection, from a clean context: the deliveries cost no more than came in. -/
theorem saveChunks_budget (env : SaveEnv) (chunks : List (List UInt8)) :
    ∀ (pIo : IoContext), Sized pIo →
      cost (saveChunks env pIo chunks).revs ≤ held pIo + chunks.flatten.length := by
  induction chunks with
  | nil => exact fun _ _ => Nat.zero_le _
  | cons c cs ih =>
    intro pIo hs
    obtain ⟨hsized, hcost⟩ := saveData_budget env pIo c hs
    rw [List.flatten_cons, List.length_append, saveChunks]
    split
    · simp only
      omega
    · next hfault =>
      have hrest := ih _ (hsized hfault)
      rw [cost_append]
      omega

end VerifyServer.Socket
