import GoSocket.Packet.Fields
import GoSocket.Packet.Getters

/-!
# Running a sequence of fields on a byte stream

`Field.Run` lists the ways one field is read: it is there and the counter
allows it, the decoder throws, or a block of negative length is declared.  A
step lemma gives what the first field does; the lemmas about a whole body
follow by induction on the sequence.
-/

namespace GoSocket.Packet

open GoSocket.Foundation

namespace Field

def prefixLength : Field → List Byte → Nat
  | uint8 _ _, _ => 0
  | uint16, _ => 0
  | string _ _, bs => varintReads 4 bs
  | gzip, bs => varintReads 4 bs

/--
The counter lets a field through when the frame has that many bytes left, and
also when it has less than the length prefix, since it wraps then.
-/
def Fits (f : Field) (c : UInt32) (first : List Byte) : Prop :=
  first.length ≤ c.toNat ∨ c.toNat < f.prefixLength first

def reads : Field → List Byte → List UInt64
  | uint8 _ _, _ => [1]
  | uint16, _ => [2]
  | string _ _, first => blockReads first
  | gzip, first => blockReads first
where
  blockReads (first : List Byte) : List UInt64 :=
    List.replicate (varintReads 4 first) 1 ++
      [UInt64.ofNat (first.length - varintReads 4 first)]

/-- What a run that throws may have asked for. -/
structure FailedReads (f : Field) (c : UInt32) (bs : List Byte)
    (reads : List UInt64) : Prop where
  small : ∀ n ∈ reads, n.toNat < 2 ^ 28
  inside : f.prefixLength bs ≤ c.toNat → (reads.map UInt64.toNat).sum ≤ c.toNat
  beyond : c.toNat < f.prefixLength bs → c.toNat < (reads.map UInt64.toNat).sum

inductive Run (z : Gzip) (f : Field) (c : UInt32) (log : List UInt64) :
    List Byte → Except Fault (f.Val × UInt32) × ByteStream → Prop
  | done {first : List Byte} {v : f.Val} (rest : List Byte)
      (hmatch : f.Match z first v) (hfits : f.Fits c first) :
      Run z f c log (first ++ rest)
        (.ok (v, c - UInt32.ofNat first.length), ⟨rest, log ++ f.reads first⟩)
  | failed {bs : List Byte} (e : TcpException) (rest : List Byte)
      {reads : List UInt64} (hreads : f.FailedReads c bs reads) :
      Run z f c log bs (.error (.tcp e), ⟨rest, log ++ reads⟩)
  | negative {q : List Byte} (rest : List Byte) (hq : AllContinue q)
      (hlen : q.length = 4) (hc : c.toNat = 2 ^ 32 - 2)
      (hf : f.prefixLength (q ++ rest) = 4) :
      Run z f c log (q ++ rest)
        (.error (.negativeBuffer (-1)),
          ⟨rest, log ++ List.replicate q.length 1⟩)

/-! ## One field -/

theorem IsBlock.length_lt {bs content : List Byte} (h : IsBlock bs content) :
    content.length < 2 ^ 28 := by
  obtain ⟨p, hp, hlen, -⟩ := h
  exact hp.lt_of_length_le (k := 4) hlen

private theorem ofNat64_toNat {n : Nat} (hn : n < 2 ^ 28) :
    (UInt64.ofNat n).toNat = n :=
  UInt64.toNat_ofNat_of_lt' (by simp only [UInt64.size]; omega)

private theorem contentReads_small {k n : Nat} (hn : n < 2 ^ 28) :
    ∀ m ∈ List.replicate k 1 ++ [UInt64.ofNat n], m.toNat < 2 ^ 28 := by
  intro m hm
  rcases List.mem_append.mp hm with hm | hm
  · rw [List.eq_of_mem_replicate hm]
    decide
  · rw [List.mem_singleton.mp hm, ofNat64_toNat hn]
    exact hn

private theorem contentReads_sum {k n : Nat} (hn : n < 2 ^ 28) :
    ((List.replicate k 1 ++ [UInt64.ofNat n]).map UInt64.toNat).sum = k + n := by
  simp [ofNat64_toNat hn]

private theorem failedReads_of_front {f : Field} {c : UInt32} {bs : List Byte}
    {k : Nat} (hf : f.prefixLength bs = k) :
    f.FailedReads c bs (List.replicate k 1) where
  small m h := by
    rw [List.eq_of_mem_replicate h]
    decide
  inside h := by simpa [← hf] using h
  beyond h := by simpa [← hf] using h

private theorem failedReads_content {f : Field} {c : UInt32} {bs : List Byte}
    {k n : Nat} (hf : f.prefixLength bs = k) (hn : n < 2 ^ 28)
    (hfit : n ≤ (c - UInt32.ofNat k).toNat) :
    f.FailedReads c bs (List.replicate k 1 ++ [UInt64.ofNat n]) := by
  refine ⟨contentReads_small hn, fun h => ?_, fun h => ?_⟩ <;>
    rw [contentReads_sum hn]
  · rw [hf] at h
    rw [toNat_sub_ofNat h] at hfit
    omega
  · omega

private theorem uint8_run (z : Gzip) (ok : Byte → Bool) (exc : TcpExcType)
    (c : UInt32) (bs : List Byte) (log : List UInt64) :
    Run z (uint8 ok exc) c log bs
      (exec ((uint8 ok exc).decode z c) ⟨bs, log⟩) := by
  rw [decode]
  by_cases hc : c.toNat < 1
  · have hnone : (uint8 ok exc).FailedReads c bs [] := failedReads_of_front rfl
    rw [exec_bind_of_error (exec_getUint8_exceeds hc _)]
    have hrun := @Run.failed z (uint8 ok exc) c log bs
      { excType := .TcpExcDataExceedsPacket } bs [] hnone
    simpa using hrun
  have hone : (uint8 ok exc).FailedReads c bs [1] :=
    ⟨by simp, fun _ => by simp; omega, by simp [prefixLength]⟩
  cases bs with
  | nil =>
      rw [exec_bind_of_error (exec_getUint8_nil (by omega) log)]
      exact .failed _ _ hone
  | cons b rest =>
      rw [exec_bind_of_ok (exec_getUint8_cons (by omega) b rest log)]
      cases hok : ok b with
      | true =>
          simp only [hok, Bool.not_true, throwIf_false, pure_bind, exec_pure]
          have hfits : (uint8 ok exc).Fits c [b] := .inl (by simp; omega)
          have hmatch : (uint8 ok exc).Match z [b] b := ⟨rfl, hok⟩
          exact .done rest hmatch hfits
      | false =>
          simp only [hok, Bool.not_false]
          rw [exec_bind_of_error (exec_throwIf_true _ _)]
          exact .failed _ _ hone

private theorem uint16_run (z : Gzip) (c : UInt32) (bs : List Byte)
    (log : List UInt64) :
    Run z uint16 c log bs (exec (uint16.decode z c) ⟨bs, log⟩) := by
  rw [decode]
  by_cases hc : c.toNat < 2
  · have hnone : uint16.FailedReads c bs [] := failedReads_of_front rfl
    rw [exec_getUint16_exceeds hc]
    have hrun := @Run.failed z uint16 c log bs
      { excType := .TcpExcDataExceedsPacket } bs [] hnone
    simpa using hrun
  have htwo : uint16.FailedReads c bs [2] :=
    ⟨by simp, fun _ => by simp; omega, by simp [prefixLength]⟩
  by_cases hshort : bs.length < 2
  · rw [exec_getUint16_short (by omega) hshort log]
    exact .failed _ _ htwo
  · obtain ⟨high, low, rest, rfl⟩ :
        ∃ high low rest, bs = high :: low :: rest := by
      rcases bs with _ | ⟨high, _ | ⟨low, rest⟩⟩
      · simp at hshort
      · simp at hshort
      · exact ⟨high, low, rest, rfl⟩
    rw [exec_getUint16_cons (by omega) high low rest log]
    have hfits : uint16.Fits c [high, low] := .inl (by simp; omega)
    have hmatch : uint16.Match z [high, low] _ :=
      ⟨high, low, rfl, uint16_toNat high low⟩
    exact .done rest hmatch hfits

/-! A block is read by `getBlock` and then checked or uncompressed; what
follows the read asks for nothing more. -/

private theorem block_fits {f : Field} {c : UInt32} {p content : List Byte}
    (hf : f.prefixLength (p ++ content) = p.length)
    (hfit : content.length ≤ (c - UInt32.ofNat p.length).toNat) :
    f.Fits c (p ++ content) := by
  rw [Fits, hf, List.length_append]
  by_cases h : c.toNat < p.length
  · exact .inr h
  · rw [toNat_sub_ofNat (by omega)] at hfit
    exact .inl (by omega)

private theorem blockReads_eq {p content : List Byte}
    (hp : Varint p content.length) (hlen : p.length ≤ 4) :
    reads.blockReads (p ++ content) =
      List.replicate p.length 1 ++ [UInt64.ofNat content.length] := by
  rw [reads.blockReads, hp.varintReads_append hlen]
  simp

private theorem block_run (z : Gzip) (f : Field) (c : UInt32) (bs : List Byte)
    (log : List UInt64) (k : List Byte × UInt32 → Decode ByteStream (f.Val × UInt32))
    (hfront : ∀ bs, f.prefixLength bs = varintReads 4 bs)
    (hreads : ∀ first, f.reads first = reads.blockReads first)
    (hk : ∀ content c' r,
      (∃ v, (∀ first, IsBlock first content → f.Match z first v) ∧
        exec (k (content, c')) r = (.ok (v, c'), r)) ∨
      ∃ e, exec (k (content, c')) r = (.error (.tcp e), r)) :
    Run z f c log bs (exec (getBlock c >>= k) ⟨bs, log⟩) := by
  have hrun := getBlock_run c bs log
  generalize hr : exec (getBlock c) (⟨bs, log⟩ : ByteStream) = r at hrun
  cases hrun with
  | @done p content rest hp hlen hfit =>
      have hpre : f.prefixLength (p ++ content ++ rest) = p.length := by
        rw [hfront, List.append_assoc, hp.varintReads_append hlen]
      have hfirst : f.prefixLength (p ++ content) = p.length := by
        rw [hfront, hp.varintReads_append hlen]
      have hblock : IsBlock (p ++ content) content := ⟨p, hp, hlen, rfl⟩
      rw [exec_bind_of_ok hr]
      rcases hk content (c - UInt32.ofNat (p ++ content).length)
          ⟨rest, log ++ List.replicate p.length 1 ++
            [UInt64.ofNat content.length]⟩ with ⟨v, hmatch, hv⟩ | ⟨e, he⟩
      · rw [hv, List.append_assoc log, ← blockReads_eq hp hlen, ← hreads]
        exact .done rest (hmatch _ hblock) (block_fits hfirst hfit)
      · rw [he, List.append_assoc log]
        exact .failed e rest
          (failedReads_content hpre hblock.length_lt hfit)
  | exceeds rest hp hlen hfit =>
      rw [exec_bind_of_error hr]
      exact .failed _ rest (failedReads_of_front (by
        rw [hfront, hp.varintReads_append hlen]))
  | endOfContent rest hp hlen hfit hend =>
      rw [exec_bind_of_error hr, List.append_assoc]
      exact .failed _ [] (failedReads_content (by
        rw [hfront, hp.varintReads_append hlen])
        (hp.lt_of_length_le (k := 4) hlen) hfit)
  | malformed rest hq hlen hc =>
      rw [exec_bind_of_error hr]
      exact .failed _ rest (failedReads_of_front (by
        rw [hfront, ← hlen, hq.varintReads_append]))
  | negative rest hq hlen hc =>
      rw [exec_bind_of_error hr]
      exact .negative rest hq hlen hc (by
        rw [hfront, ← hlen, hq.varintReads_append])
  | endOfLength hq hlen =>
      rw [exec_bind_of_error hr]
      exact .failed _ [] (failedReads_of_front (by
        rw [hfront, hq.varintReads_of_lt hlen]))

theorem run (z : Gzip) (f : Field) (c : UInt32) (bs : List Byte)
    (log : List UInt64) :
    Run z f c log bs (exec (f.decode z c) ⟨bs, log⟩) := by
  cases f with
  | uint8 ok exc => exact uint8_run z ok exc c bs log
  | uint16 => exact uint16_run z c bs log
  | string ok exc =>
      refine block_run z (string ok exc) c bs log
        (fun block => do throwIf (!ok block.1) exc; return block)
        (fun _ => rfl) (fun _ => rfl) fun content c' r => ?_
      cases hok : ok content with
      | true =>
          simp only [Bool.not_true, throwIf_false, pure_bind, exec_pure]
          exact .inl ⟨content, fun first hfirst => ⟨hfirst, hok⟩, rfl⟩
      | false =>
          simp only [Bool.not_false]
          rw [exec_bind_of_error (exec_throwIf_true _ _)]
          exact .inr ⟨_, rfl⟩
  | gzip =>
      refine block_run z gzip c bs log
        (fun block => do
          let result ← uncompress z block.1
          return (result, block.2))
        (fun _ => rfl) (fun _ => rfl) fun content c' r => ?_
      by_cases hempty : content = []
      · subst hempty
        exact .inl ⟨[], fun first hfirst => ⟨[], hfirst, .inl ⟨rfl, rfl⟩⟩, rfl⟩
      have hpos : 0 < content.length := List.length_pos_iff.mpr hempty
      cases hz : z.gzipUncompress content with
      | some output =>
          simp only [uncompress, hpos, if_true, hz, pure_bind, exec_pure]
          exact .inl ⟨output, fun first hfirst =>
            ⟨content, hfirst, .inr ⟨hempty, hz⟩⟩, rfl⟩
      | none =>
          simp only [uncompress, hpos, if_true, hz, throwTcp]
          exact .inr ⟨_, rfl⟩

theorem of_decode_eq_ok {z : Gzip} {f : Field} {c c' : UInt32}
    {bs : List Byte} {log : List UInt64} {v : f.Val} {r : ByteStream}
    (h : exec (f.decode z c) ⟨bs, log⟩ = (.ok (v, c'), r)) :
    ∃ first rest, bs = first ++ rest ∧ f.Match z first v ∧ f.Fits c first ∧
      c' = c - UInt32.ofNat first.length ∧ r = ⟨rest, log ++ f.reads first⟩ := by
  have hrun := run z f c bs log
  rw [h] at hrun
  cases hrun with
  | done rest hmatch hfits => exact ⟨_, rest, rfl, hmatch, hfits, rfl, rfl⟩

theorem getBlock_of_isBlock {c : UInt32} {first content : List Byte}
    (hblock : IsBlock first content)
    (hfits : first.length ≤ c.toNat ∨ c.toNat < varintReads 4 first)
    (rest : List Byte) (log : List UInt64) :
    exec (getBlock c) (⟨first ++ rest, log⟩ : ByteStream) =
      (.ok (content, c - UInt32.ofNat first.length),
        ⟨rest, log ++ reads.blockReads first⟩) := by
  have hn := hblock.length_lt
  obtain ⟨p, hp, hlen, rfl⟩ := hblock
  rw [hp.varintReads_append hlen, List.length_append] at hfits
  have hk : (UInt32.ofNat p.length).toNat = p.length :=
    UInt32.toNat_ofNat_of_lt' (by simp only [UInt32.size]; omega)
  have hfit : content.length ≤ (c - UInt32.ofNat p.length).toNat := by
    have hc := c.toNat_lt
    rw [UInt32.toNat_sub, hk]
    omega
  rw [(getBlock_run c _ log).eq_done hp hlen hfit, blockReads_eq hp hlen,
    List.append_assoc log]

theorem decode_of_match {z : Gzip} {f : Field} {c : UInt32}
    {first : List Byte} {v : f.Val} (hmatch : f.Match z first v)
    (hfits : f.Fits c first) (rest : List Byte) (log : List UInt64) :
    exec (f.decode z c) (⟨first ++ rest, log⟩ : ByteStream) =
      (.ok (v, c - UInt32.ofNat first.length),
        ⟨rest, log ++ f.reads first⟩) := by
  cases f with
  | uint8 ok exc =>
      obtain ⟨rfl, hok⟩ := hmatch
      have hc : 1 ≤ c.toNat := by simpa [Fits, prefixLength] using hfits
      rw [decode, List.singleton_append,
        exec_bind_of_ok (exec_getUint8_cons hc v rest log)]
      simp only [hok, Bool.not_true, throwIf_false, pure_bind, exec_pure]
      rfl
  | uint16 =>
      obtain ⟨high, low, rfl, hv⟩ := hmatch
      have hc : 2 ≤ c.toNat := by simpa [Fits, prefixLength] using hfits
      have hval : v = high.toUInt16 <<< 8 ||| low.toUInt16 :=
        UInt16.toNat_inj.mp (hv.trans (uint16_toNat high low).symm)
      rw [hval]
      exact exec_getUint16_cons hc high low rest log
  | string ok exc =>
      obtain ⟨hblock, hok⟩ := hmatch
      have hread := getBlock_of_isBlock hblock hfits rest log
      rw [decode, getString, exec_bind_of_ok hread]
      simp only [hok, Bool.not_true, throwIf_false, pure_bind, exec_pure]
      rfl
  | gzip =>
      obtain ⟨content, hblock, hgzip⟩ := hmatch
      have hread := getBlock_of_isBlock hblock hfits rest log
      rw [decode, getGzipString, exec_bind_of_ok hread]
      rcases hgzip with ⟨rfl, rfl⟩ | ⟨hempty, hz⟩
      · rfl
      · have hpos : 0 < content.length := List.length_pos_iff.mpr hempty
        simp only [uncompress, hpos, if_true, hz, pure_bind, exec_pure]
        rfl

theorem Match.length_lt {z : Gzip} {f : Field} {first : List Byte} {v : f.Val}
    (hmatch : f.Match z first v) : first.length < 2 ^ 28 + 4 := by
  have hblock {content : List Byte} (h : IsBlock first content) :
      first.length < 2 ^ 28 + 4 := by
    have hn := h.length_lt
    obtain ⟨p, -, hlen, rfl⟩ := h
    rw [List.length_append]
    omega
  cases f with
  | uint8 ok exc =>
      obtain ⟨rfl, -⟩ := hmatch
      simp
  | uint16 =>
      obtain ⟨high, low, rfl, -⟩ := hmatch
      simp
  | string ok exc => exact hblock hmatch.1
  | gzip =>
      obtain ⟨content, h, -⟩ := hmatch
      exact hblock h

theorem reads_sum {z : Gzip} {f : Field} {first : List Byte} {v : f.Val}
    (hmatch : f.Match z first v) :
    ((f.reads first).map UInt64.toNat).sum = first.length := by
  have hblock {content : List Byte} (h : IsBlock first content) :
      ((reads.blockReads first).map UInt64.toNat).sum = first.length := by
    have hn := h.length_lt
    obtain ⟨p, hp, hlen, rfl⟩ := h
    rw [blockReads_eq hp hlen, contentReads_sum hn, List.length_append]
  cases f with
  | uint8 ok exc =>
      obtain ⟨rfl, -⟩ := hmatch
      rfl
  | uint16 =>
      obtain ⟨high, low, rfl, -⟩ := hmatch
      rfl
  | string ok exc => exact hblock hmatch.1
  | gzip =>
      obtain ⟨content, h, -⟩ := hmatch
      exact hblock h

theorem reads_small {z : Gzip} {f : Field} {first : List Byte} {v : f.Val}
    (hmatch : f.Match z first v) {n : UInt64} (hn : n ∈ f.reads first) :
    n.toNat < 2 ^ 28 := by
  have hblock {content : List Byte} (h : IsBlock first content)
      (hn : n ∈ reads.blockReads first) : n.toNat < 2 ^ 28 := by
    have hlt := h.length_lt
    obtain ⟨p, hp, hlen, rfl⟩ := h
    rw [blockReads_eq hp hlen] at hn
    exact contentReads_small hlt n hn
  cases f with
  | uint8 ok exc => simp_all [reads]
  | uint16 => simp_all [reads]
  | string ok exc => exact hblock hmatch.1 hn
  | gzip =>
      obtain ⟨content, h, -⟩ := hmatch
      exact hblock h hn

end Field

end GoSocket.Packet
