import PstDedupe.PstWriter.StreamRollback

/-!
# A value streamed and a value written whole

`writeDataChainFromReader` learns the length of a value by reading it, `writeDataChain` knows it.
-/

namespace PstWriter

open Rust Foundations List

/-- The reader delivers `d` in reads that are not empty, and is interrupted any number of times. -/
def Reader.Delivers : Reader → Bytes → Prop
  | [], d => d = []
  | .interrupted :: rest, d => Delivers rest d
  | .error :: _, _ => False
  | .data bytes :: rest, d => bytes ≠ [] ∧ ∃ behind, d = bytes ++ behind ∧ Delivers rest behind

theorem size_delivers {reader : Reader} {d : Bytes} (h : reader.Delivers d) : reader.size = d.length := by
  induction reader generalizing d with
  | nil =>
    cases h
    rfl
  | cons event rest ih =>
    cases event with
    | interrupted =>
      show 0 + Reader.size rest = d.length
      rw [Nat.zero_add]
      exact ih h
    | error => exact h.elim
    | data bytes =>
      obtain ⟨-, behind, rfl, hrest⟩ := h
      rw [size_data, ih hrest, length_append]

theorem fillBuffer_delivers {buf d : Bytes} {reader : Reader} (h : reader.Delivers d)
    (hbuf : buf.length ≤ streamChunkSize) :
    ∃ reader' : Reader,
      fillBuffer buf reader = .ok (buf ++ d.take (streamChunkSize - buf.length), reader') ∧ reader'.Delivers (d.drop (streamChunkSize - buf.length)) := by
  induction reader generalizing buf d with
  | nil =>
    cases h
    exact ⟨[], by simp [fillBuffer], by simp [Reader.Delivers]⟩
  | cons event rest ih =>
    by_cases hroom : buf.length < streamChunkSize
    · cases event with
      | interrupted =>
        rw [fillBuffer, if_pos hroom]
        exact ih h hbuf
      | error => exact h.elim
      | data bytes =>
        obtain ⟨hne, behind, rfl, hrest⟩ := h
        rw [fillBuffer, if_pos hroom]
        simp only [if_neg hne]
        by_cases hfits : bytes.length ≤ streamChunkSize - buf.length
        · rw [if_pos hfits]
          obtain ⟨reader', hfill, hbehind⟩ := ih hrest (show (buf ++ bytes).length ≤ streamChunkSize by
            rw [length_append]
            omega)
          have hleft : streamChunkSize - (buf ++ bytes).length
              = streamChunkSize - buf.length - bytes.length := by
            rw [length_append]
            omega
          rw [hleft] at hfill hbehind
          refine ⟨reader', ?_, ?_⟩
          · rw [hfill, take_append, take_of_length_le hfits, append_assoc]
          · rwa [drop_append, drop_of_length_le hfits, nil_append]
        · rw [if_neg hfits]
          have hle : streamChunkSize - buf.length ≤ bytes.length := by omega
          refine ⟨.data (bytes.drop (streamChunkSize - buf.length)) :: rest, ?_, ?_, behind, ?_, hrest⟩
          · rw [take_append_of_le_length hle]
          · intro hnil
            have hlen := congrArg length hnil
            rw [length_drop, length_nil] at hlen
            omega
          · exact drop_append_of_le_length hle
    · have hfull : streamChunkSize - buf.length = 0 := by omega
      refine ⟨event :: rest, ?_, by rwa [hfull, drop_zero]⟩
      rw [fillBuffer.eq_def]
      simp only [if_neg hroom, hfull, take_zero, append_nil]

/-- The chunks of the value, unless it is too long. Induction on the rounds: each takes the first
chunk. -/
theorem streamPayloads_delivers {fuel total : Nat} {d : Bytes} {reader : Reader}
    (h : reader.Delivers d) (hfuel : d.length < fuel) (htotal : total ≤ i32Max) :
    (total + d.length ≤ i32Max → streamPayloads fuel total reader = (chunks maxBlockData d, none)) ∧
      (i32Max < total + d.length → (streamPayloads fuel total reader).2 ≠ none) := by
  induction fuel generalizing total d reader with
  | zero => omega
  | succ fuel ih =>
    obtain ⟨reader', hfill, hbehind⟩ := @fillBuffer_delivers [] d reader h (Nat.zero_le _)
    rw [nil_append, length_nil, Nat.sub_zero] at hfill
    rw [length_nil, Nat.sub_zero] at hbehind
    have hpos : 0 < streamChunkSize := by decide
    have hlen : (d.take streamChunkSize).length = min streamChunkSize d.length := length_take
    rw [streamPayloads, hfill]
    dsimp only
    by_cases hnil : d = []
    · subst hnil
      simp only [take_nil, if_true, length_nil, Nat.add_zero]
      exact ⟨fun _ => rfl, fun hbig => by omega⟩
    · have hdpos := List.length_pos_iff.mpr hnil
      have htake : d.take streamChunkSize ≠ [] := by
        intro htake
        rw [htake, length_nil] at hlen
        omega
      rw [if_neg htake, chunks_of_ne_nil (by decide) hnil]
      by_cases hbig : total + (d.take streamChunkSize).length > i32Max
      · rw [if_pos hbig]
        exact ⟨fun hfits => by omega, fun _ => Option.some_ne_none _⟩
      rw [if_neg hbig]
      by_cases hshort : (d.take streamChunkSize).length < streamChunkSize
      · rw [if_pos hshort]
        have hend : d.drop maxBlockData = [] := drop_of_length_le (show d.length ≤ streamChunkSize by omega)
        rw [hend]
        exact ⟨fun _ => rfl, fun hover => by omega⟩
      · rw [if_neg hshort]
        have hdrop : (d.drop streamChunkSize).length = d.length - streamChunkSize := length_drop
        obtain ⟨hfits, hover⟩ :=
          @ih (total + (d.take streamChunkSize).length) _ _ hbehind (by omega) (by omega)
        constructor
        · intro hle
          rw [hfits (by omega)]
          rfl
        · intro hle
          exact hover (by omega)

section

variable [Crc32fast] {l l' : Layout}

theorem writeDataChainFromReaderInner_delivers {d : Bytes} {reader : Reader} (h : reader.Delivers d)
    (hle : d.length ≤ i32Max) : l.writeDataChainFromReaderInner reader =
      match l.pushLeaves (chunks maxBlockData d) with
      | (.error e, l') => (.error e, l')
      | (.ok [], l') => (.ok (0, 0), l')
      | (.ok [(bid, _)], l') => (.ok (bid, d.length), l')
      | (.ok cs, l') =>
        match l'.buildChunkTree cs d.length streamOverflowMessage with
        | (.error e, l') => (.error e, l')
        | (.ok bid, l') => (.ok (bid, d.length), l') := by
  have hpayloads := (@streamPayloads_delivers (d.length + 1) 0 d reader h (Nat.lt_succ_self _)
    (Nat.zero_le _)).1 (by omega)
  unfold Layout.writeDataChainFromReaderInner
  rw [size_delivers h, streamLoop_eq, hpayloads]
  dsimp only
  rcases hpush : l.pushLeaves (chunks maxBlockData d) with ⟨e | cs, l'⟩
  · rfl
  · have hsum : (cs.map Prod.snd).sum = d.length := by
      rw [length_pushLeaves hpush, ← length_flatten, flatten_chunks (by decide)]
    have hu32 : asU32 d.length = d.length := Nat.mod_eq_of_lt (lt_of_le_of_lt hle (by decide))
    dsimp only
    rw [nil_append, hsum, Nat.zero_add, hu32]
    rcases cs with _ | ⟨c, _ | ⟨c', cs⟩⟩ <;> rfl

omit [Crc32fast] in
theorem buildChunkTree_message (cs : List (Nat × Nat)) (totalLen : Nat) (m m' : Nat → String) (bid : Nat) :
    ((l.buildChunkTree cs totalLen m).1 = .ok bid ↔ (l.buildChunkTree cs totalLen m').1 = .ok bid) ∧
      (l.buildChunkTree cs totalLen m).2 = (l.buildChunkTree cs totalLen m').2 := by
  unfold Layout.buildChunkTree
  split
  · exact ⟨Iff.rfl, rfl⟩
  · dsimp only
    split
    · exact ⟨by simp, rfl⟩
    · exact ⟨Iff.rfl, rfl⟩

theorem fst_writeDataChainFromReader_eq_ok {reader : Reader} {v : Nat × Nat} :
    (l.writeDataChainFromReader reader).1 = .ok v ↔ (l.writeDataChainFromReaderInner reader).1 = .ok v := by
  unfold Layout.writeDataChainFromReader
  rcases l.writeDataChainFromReaderInner reader with ⟨e | w, l'⟩
  · simp
  · exact Iff.rfl

theorem snd_writeDataChainFromReader {reader : Reader} {v : Nat × Nat}
    (h : (l.writeDataChainFromReaderInner reader).1 = .ok v) :
    (l.writeDataChainFromReader reader).2 = (l.writeDataChainFromReaderInner reader).2 := by
  unfold Layout.writeDataChainFromReader
  rcases hinner : l.writeDataChainFromReaderInner reader with ⟨e | w, l'⟩
  · rw [hinner] at h
    cases h
  · rfl

/-- **Streamed or whole, the same chain.** From any layout, also one whose temp file fails, a reader
that delivers `d` is written with the root and the layout that `d` itself is written with. -/
theorem writeDataChainFromReader_eq_writeDataChain (l : Layout) {d : Bytes} {reader : Reader}
    (h : reader.Delivers d) (bid : Nat) :
    ((l.writeDataChainFromReader reader).1 = .ok (bid, d.length) ↔ (l.writeDataChain d).1 = .ok bid) ∧
      ((l.writeDataChain d).1 = .ok bid → (l.writeDataChainFromReader reader).2 = (l.writeDataChain d).2) := by
  suffices hinner : ((l.writeDataChainFromReaderInner reader).1 = .ok (bid, d.length) ↔
      (l.writeDataChain d).1 = .ok bid) ∧
        ((l.writeDataChain d).1 = .ok bid →
          (l.writeDataChainFromReaderInner reader).2 = (l.writeDataChain d).2) by
    refine ⟨fst_writeDataChainFromReader_eq_ok.trans hinner.1, fun hok => ?_⟩
    rw [snd_writeDataChainFromReader (hinner.1.mpr hok)]
    exact hinner.2 hok
  by_cases hbig : d.length > i32Max
  · -- neither is written
    have hnil : d ≠ [] := by
      rintro rfl
      exact absurd hbig (Nat.not_lt_zero _)
    have hstop := (@streamPayloads_delivers (d.length + 1) 0 d reader h (Nat.lt_succ_self _)
      (Nat.zero_le _)).2 (by omega)
    have hwhole : (l.writeDataChain d).1 ≠ .ok bid := by
      unfold Layout.writeDataChain
      rw [if_neg hnil, if_pos hbig]
      simp
    have hstreamed : (l.writeDataChainFromReaderInner reader).1 ≠ .ok (bid, d.length) := by
      obtain ⟨e, he⟩ := Option.ne_none_iff_exists'.mp hstop
      unfold Layout.writeDataChainFromReaderInner
      rw [size_delivers h, streamLoop_eq, he]
      rcases l.pushLeaves (streamPayloads (d.length + 1) 0 reader).1 with ⟨_ | _, _⟩ <;> simp
    exact ⟨⟨fun hok => absurd hok hstreamed, fun hok => absurd hok hwhole⟩, fun hok => absurd hok hwhole⟩
  rw [writeDataChainFromReaderInner_delivers h (Nat.le_of_not_lt hbig)]
  unfold Layout.writeDataChain
  by_cases hnil : d = []
  · subst hnil
    rw [if_pos rfl]
    show ((Except.ok (0, 0) : Result (Nat × Nat)) = .ok (bid, 0) ↔ _) ∧ _
    exact ⟨by simp [eq_comm], fun _ => rfl⟩
  rw [if_neg hnil, if_neg hbig]
  by_cases hone : d.length ≤ maxBlockData
  · -- one leaf
    have hchunks : chunks maxBlockData d = [d] := by
      rw [chunks_of_ne_nil (by decide) hnil, take_of_length_le hone, drop_of_length_le hone]
      rfl
    rw [if_pos hone, hchunks, Layout.pushLeaves]
    rcases l.pushLeaf d with ⟨e | b, l'⟩
    · exact ⟨by simp, by simp⟩
    · exact ⟨by simp [Layout.pushLeaves], fun _ => rfl⟩
  · rw [if_neg hone]
    rcases hpush : l.pushLeaves (chunks maxBlockData d) with ⟨e | cs, l'⟩
    · exact ⟨by simp, by simp⟩
    · -- there are at least two chunks
      have htwo : 1 < cs.length := by
        have hcount := congrArg length (length_pushLeaves hpush)
        rw [length_map, length_map, length_chunks (by decide)] at hcount
        rw [hcount]
        have hsize : (0 : Nat) < maxBlockData := by decide
        exact (Nat.le_div_iff_mul_le hsize).mpr (by omega)
      rcases cs with _ | ⟨c, _ | ⟨c', cs⟩⟩
      · exact absurd htwo (by simp)
      · exact absurd htwo (by simp)
      · obtain ⟨hiff, hsame⟩ :=
          @buildChunkTree_message l' (c :: c' :: cs) d.length chainOverflowMessage streamOverflowMessage bid
        dsimp only
        rw [hiff, hsame]
        rcases l'.buildChunkTree (c :: c' :: cs) d.length streamOverflowMessage with ⟨e | b, l''⟩
        · exact ⟨by simp, by simp⟩
        · exact ⟨by simp, fun _ => rfl⟩

end

/-- Three bytes in two reads, with an interrupt between them. -/
theorem writeDataChainFromReader_eq_writeDataChain_split :
    letI := Crc32fast.ieee
    ((Layout.new.writeDataChainFromReader [.data [1], .interrupted, .data [2, 3]]).1 = .ok (0x10, 3) ↔
        (Layout.new.writeDataChain [1, 2, 3]).1 = .ok 0x10) ∧
      ((Layout.new.writeDataChain [1, 2, 3]).1 = .ok 0x10 →
        (Layout.new.writeDataChainFromReader [.data [1], .interrupted, .data [2, 3]]).2 =
          (Layout.new.writeDataChain [1, 2, 3]).2) :=
  letI := Crc32fast.ieee
  writeDataChainFromReader_eq_writeDataChain Layout.new
    (show Reader.Delivers [.data [1], .interrupted, .data [2, 3]] [1, 2, 3] from
      ⟨by decide, [2, 3], rfl, by decide, [], rfl, rfl⟩) 0x10

end PstWriter
