import VerifyServer.Socket.Packets
import VerifyServer.Socket.Buffers

/-!
# Wellformed — the buffers of a context under any stream

The length field of a header is a `DWORD`; `SaveData` keeps it in an `int`.  As long as no field it
reads has its top bit set, the lengths on the context stay those of the buffers beside them.
-/

open VerifyServer.Reasoning

namespace VerifyServer.Socket

/-! ## 1. The lengths and the buffers -/

/-- The lengths kept on a context are right. -/
structure IoContext.Valid (pIo : IoContext) : Prop where
  cur_nonneg : 0 ≤ pIo.tmpBuf.nCurLen
  cur_le : pIo.tmpBuf.nCurLen ≤ pIo.tmpBuf.nDesLen
  des : pIo.tmpBuf.nDesLen = 0 ∨ 15 ≤ pIo.tmpBuf.nDesLen ∧
    ∃ bs, pIo.tmpBuf.pBuf = some bs ∧ (bs.length : Int) = pIo.tmpBuf.nDesLen
  head_nonneg : 0 ≤ pIo.tmpHeadBuf.nLen
  head_le : pIo.tmpHeadBuf.nLen ≤ 10
  head_buf : pIo.tmpHeadBuf.nLen ≠ 0 →
    ∃ bs, pIo.tmpHeadBuf.pBuf = some bs ∧ (bs.length : Int) = pIo.tmpHeadBuf.nLen
  head_alone : pIo.tmpHeadBuf.nLen ≠ 0 → pIo.tmpBuf.nDesLen = 0 ∧ pIo.tmpBuf.nCurLen = 0

/-- The bytes of earlier chunks that a context holds. -/
def IoContext.heldBytes (pIo : IoContext) : List UInt8 :=
  if 0 < pIo.tmpHeadBuf.nLen then (pIo.tmpHeadBuf.pBuf.getD []).take pIo.tmpHeadBuf.nLen.toNat
  else (pIo.tmpBuf.pBuf.getD []).take pIo.tmpBuf.nCurLen.toNat

theorem Pending.valid {pIo : IoContext} {bs : List UInt8} (h : Pending pIo bs) : pIo.Valid := by
  cases h with
  | head hh =>
    have hlen := hh.len
    have hshort := hh.short
    refine ⟨by rw [hh.cur], by rw [hh.cur, hh.des], .inl hh.des, by omega, by omega,
      fun hne => ⟨bs, hh.buf fun hnil => hne ?_, hlen.symm⟩, fun _ => ⟨hh.des, hh.cur⟩⟩
    rw [hlen, hnil]
    rfl
  | @part n hpart hn =>
    have h15 := (getPacketLen_ge (s := bs) (by omega)).1
    have hcur := hpart.cur
    have hdes := hpart.des
    have hpartly := hpart.partly
    obtain ⟨buf, hbuf, hlen, -⟩ := hpart.buf
    exact ⟨by omega, by omega, .inr ⟨by omega, buf, hbuf, by omega⟩, hpart.noHead.ge,
      by rw [hpart.noHead]; decide, fun hne => absurd hpart.noHead hne,
      fun hne => absurd hpart.noHead hne⟩

theorem Pending.heldBytes {pIo : IoContext} {bs : List UInt8} (h : Pending pIo bs) :
    pIo.heldBytes = bs := by
  unfold IoContext.heldBytes
  cases h with
  | head hh =>
    by_cases hnil : bs = []
    · subst hnil
      rw [if_neg (by rw [hh.len]; exact lt_irrefl _), hh.cur]
      rfl
    · have hpos := List.length_pos_of_ne_nil hnil
      rw [if_pos (by rw [hh.len]; omega), hh.buf hnil, hh.len, Int.toNat_natCast]
      exact List.take_length
  | part hpart _ =>
    obtain ⟨buf, hbuf, -, htake⟩ := hpart.buf
    rw [if_neg (by rw [hpart.noHead]; exact lt_irrefl _), hbuf, hpart.cur, Int.toNat_natCast]
    exact htake

/-! ## 2. The length fields -/

/-- Where the packets of `s` start, the first one at its front, and where the last one ends. -/
inductive Boundary : List UInt8 → Nat → Prop where
  | here {s : List UInt8} : Boundary s 0
  | next {s : List UInt8} {n i : Nat} :
      getPacketLen s = n → n ≤ s.length → Boundary (s.drop n) i → Boundary s (n + i)

/-- No length field read at a boundary is a negative `int` other than the one that stands for no
packet. -/
def LengthsFit (s : List UInt8) : Prop := ∀ i, Boundary s i → noPacket ≤ getPacketLen (s.drop i)

theorem Drains.fit_iff {s : List UInt8} {ps : List (List UInt8)} {tail : Tail}
    (h : Drains s ps tail) : LengthsFit s ↔ tail ≠ .huge := by
  have hnone : noPacket = -1 := rfl
  -- without a packet at the front there is one boundary
  have hone {s : List UInt8} (hno : ∀ n : Nat, getPacketLen s = n → s.length < n) :
      LengthsFit s ↔ noPacket ≤ getPacketLen s := by
    refine ⟨fun hfit => hfit 0 .here, fun hge i hi => ?_⟩
    cases hi with
    | here => exact hge
    | next hn hle _ => exact absurd (hno _ hn) (by omega)
  induction h with
  | short hs =>
    have hlen := getPacketLen_short hs
    rw [hone (fun n hn => by omega)]
    exact ⟨fun _ => Tail.noConfusion, fun _ => by omega⟩
  | junk hs hp =>
    rw [hone (fun n hn => by omega)]
    exact ⟨fun _ => Tail.noConfusion, fun _ => by omega⟩
  | huge hp =>
    rw [hone (fun n hn => by omega)]
    exact ⟨fun hge => by omega, fun hne => absurd rfl hne⟩
  | part hp =>
    rw [hone (fun n hn => by omega)]
    exact ⟨fun _ => Tail.noConfusion, fun _ => by omega⟩
  | @packet s n ps tail hn hle _ ih =>
    refine Iff.trans ⟨fun hfit i hi => ?_, fun hfit i hi => ?_⟩ ih
    · rw [List.drop_drop]
      exact hfit _ (.next hn hle hi)
    · cases hi with
      | here => rw [List.drop_zero, hn]; omega
      | next hn' _ hi' =>
        obtain rfl := Int.ofNat.inj (hn'.symm.trans hn)
        rw [← List.drop_drop]
        exact hfit _ hi'

/-! ## 3. Runs -/

theorem saveChunks_fault_left {env : SaveEnv} {chunks : List (List UInt8)} {pIo : IoContext}
    {c : List UInt8} (h : (saveChunks env pIo (chunks ++ [c])).fault = none) :
    (saveChunks env pIo chunks).fault = none := by
  induction chunks generalizing pIo with
  | nil => rfl
  | cons d chunks ih =>
    rw [List.cons_append, saveChunks] at h
    rw [saveChunks]
    cases hfault : (saveData env pIo d).fault with
    | none =>
      simp only [hfault] at h
      exact ih h
    | some e =>
      simp only [hfault] at h
      cases h

/-- One more chunk on a context that holds `bs`. -/
theorem saveChunks_step {env : SaveEnv} {chunks : List (List UInt8)} {pIo : IoContext}
    {bs : List UInt8} (hf : (saveChunks env pIo chunks).fault = none)
    (hp : Pending (saveChunks env pIo chunks).ctx bs) (c : List UInt8) :
    ((saveChunks env pIo (chunks ++ [c])).fault = none ↔ LengthsFit (bs ++ c)) ∧
      ((saveChunks env pIo (chunks ++ [c])).fault = none →
        ∃ bs', Pending (saveChunks env pIo (chunks ++ [c])).ctx bs') := by
  obtain ⟨ps, tail, hdrain⟩ := drains_total (bs ++ c)
  have hfeeds := saveData_feeds env hp hdrain
  rw [saveChunks_snoc hf, hdrain.fit_iff]
  simp only [hfeeds.fault]
  cases tail with
  | held bs' => exact ⟨by simp, fun _ => ⟨bs', hfeeds.pending bs' rfl⟩⟩
  | junk => exact ⟨by simp, fun _ => ⟨[], hfeeds.pending [] rfl⟩⟩
  | huge => exact ⟨by simp, fun h => by cases h⟩

/-- As long as no call faults, the context holds what it should. -/
theorem saveChunks_pending {env : SaveEnv} {pIo : IoContext} (hc : pIo.Clean)
    (chunks : List (List UInt8)) (hf : (saveChunks env pIo chunks).fault = none) :
    ∃ bs, Pending (saveChunks env pIo chunks).ctx bs := by
  induction chunks using List.reverseRecOn with
  | nil => exact ⟨[], pending_of_clean hc⟩
  | append_singleton chunks c ih =>
    have hf' := saveChunks_fault_left hf
    obtain ⟨bs, hp⟩ := ih hf'
    exact (saveChunks_step hf' hp c).2 hf

/-- **Any stream, any cut.**  Every call stays in bounds and leaves the lengths right exactly when
no call reads a length field that is too large. -/
theorem saveChunks_valid_iff (env : SaveEnv) (chunks : List (List UInt8)) {pIo : IoContext}
    (hc : pIo.Clean) :
    (∀ done, done <+: chunks →
        (saveChunks env pIo done).fault = none ∧ (saveChunks env pIo done).ctx.Valid) ↔
      ∀ done c, done ++ [c] <+: chunks →
        LengthsFit ((saveChunks env pIo done).ctx.heldBytes ++ c) := by
  have hleft {done : List (List UInt8)} {c : List UInt8} (h : done ++ [c] <+: chunks) :
      done <+: chunks := (List.prefix_append done [c]).trans h
  constructor
  · intro hvalid done c hpre
    have hf := (hvalid done (hleft hpre)).1
    obtain ⟨bs, hp⟩ := saveChunks_pending hc done hf
    rw [hp.heldBytes]
    exact (saveChunks_step hf hp c).1.mp (hvalid _ hpre).1
  · intro hfit done hpre
    have hf : (saveChunks env pIo done).fault = none := by
      induction done using List.reverseRecOn with
      | nil => rfl
      | append_singleton done c ih =>
        have hf' := ih (hleft hpre)
        obtain ⟨bs, hp⟩ := saveChunks_pending hc done hf'
        apply (saveChunks_step hf' hp c).1.mpr
        rw [← hp.heldBytes]
        exact hfit done c hpre
    obtain ⟨bs, hp⟩ := saveChunks_pending hc done hf
    exact ⟨hf, hp.valid⟩

-- the header of a packet of seventeen bytes, and one byte behind it
private def header17 : List UInt8 := [0x53, 0x3A, 50, 0, 0, 0, 17, 0, 0, 0, 0x7B]

theorem saveChunks_valid_iff_header :
    (saveChunks asciiEnv {} [header17]).fault = none ∧
      (saveChunks asciiEnv {} [header17]).ctx.Valid := by
  apply (saveChunks_valid_iff _ [header17] (by decide)).mpr ?_ _ (List.prefix_refl _)
  intro done c hpre
  have hlen := hpre.length_le
  rw [List.length_append, List.length_singleton, List.length_singleton] at hlen
  obtain rfl := List.length_eq_zero_iff.mp (by omega : done.length = 0)
  obtain rfl := (List.cons_prefix_cons.mp hpre).1
  have hpart : Drains header17 [] (.held header17) := .part (by decide)
  exact hpart.fit_iff.mpr Tail.noConfusion

-- a length field of `0x80000000`
private def hugeHeader : List UInt8 := [0x53, 0x3A, 50, 0, 0, 0, 0, 0, 0, 0x80, 0x7B]

/-- The size asked of `new` is negative. -/
theorem saveChunks_huge :
    ¬ ∀ done, done <+: [hugeHeader] →
      (saveChunks asciiEnv {} done).fault = none ∧
        (saveChunks asciiEnv {} done).ctx.Valid := by
  intro hvalid
  have hclean : IoContext.Clean {} := by decide
  have hhuge : Drains hugeHeader [] .huge := .huge (by decide)
  have hfault : (saveData asciiEnv {} hugeHeader).fault = some .badAlloc :=
    (saveData_feeds _ (pending_of_clean hclean) hhuge).fault
  have hf := (hvalid _ (List.prefix_refl _)).1
  rw [saveChunks, hfault] at hf
  cases hf

end VerifyServer.Socket
