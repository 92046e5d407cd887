import Bore.TransferReceiver

namespace Bore.TransferChunks

open OsPath TransferManifest TransferReceiver List

theorem length_setLen (data : Bytes) (size : Nat) : (setLen data size).length = size := by
  simp only [setLen, zeros, length_append, length_take, length_replicate]
  omega

variable {data : Bytes}

theorem setLen_of_le {size : Nat} (h : size ≤ data.length) : setLen data size = data.take size := by
  have h0 : size - data.length = 0 := by omega
  rw [setLen, zeros, h0, replicate_zero, append_nil]

variable {payload : Bytes} {offset : Nat}

section

variable (h : offset + payload.length ≤ data.length)
include h

theorem writeAt_inside :
    writeAt data offset payload = data.take offset ++ payload ++ data.drop (offset + payload.length) := by
  rw [writeAt, setLen_of_le (by omega)]

theorem length_writeAt :
    (writeAt data offset payload).length = data.length := by
  rw [writeAt_inside h]
  simp only [length_append, length_take, length_drop]
  omega

theorem getElem?_writeAt (j : Nat) : (writeAt data offset payload)[j]? =
      if offset ≤ j ∧ j < offset + payload.length then payload[j - offset]? else data[j]? := by
  have ht : (data.take offset).length = offset := by
    rw [length_take]
    omega
  rw [writeAt_inside h, append_assoc]
  by_cases h1 : j < offset
  · rw [getElem?_append_left (by omega), getElem?_take_of_lt h1, if_neg (by omega)]
  rw [getElem?_append_right (by omega), ht]
  by_cases h2 : j < offset + payload.length
  · rw [getElem?_append_left (by omega), if_pos ⟨by omega, h2⟩]
  · rw [getElem?_append_right (by omega), getElem?_drop, if_neg (by omega)]
    congr 1
    omega

end

def chunk (content : Bytes) (i : Nat) : Bytes := (content.drop (i * chunkSize)).take chunkSize

theorem length_chunk (content : Bytes) (i : Nat) :
    (chunk content i).length = min chunkSize (content.length - i * chunkSize) := by
  rw [chunk, length_take, length_drop]

def Agrees (data content : Bytes) (i : Nat) : Prop :=
  ∀ j, i * chunkSize ≤ j → j < (i + 1) * chunkSize → data[j]? = content[j]?

section Write

variable {data content : Bytes} {i : Nat}

theorem chunk_fits (hl : data.length = content.length) (hi : i * chunkSize ≤ content.length) (k : Nat) :
    i * chunkSize + ((chunk content i).take k).length ≤ data.length := by
  rw [length_take, length_chunk]
  omega

theorem getElem?_chunk {j k : Nat} (h : j < ((chunk content i).take k).length) :
    ((chunk content i).take k)[j]? = content[i * chunkSize + j]? := by
  rw [length_take, length_chunk] at h
  rw [getElem?_take_of_lt (by omega), chunk, getElem?_take_of_lt (by omega), getElem?_drop]

theorem Agrees.write {m : Nat} (h : Agrees data content m) (hl : data.length = content.length)
    (hi : i * chunkSize ≤ content.length) (k : Nat) :
    Agrees (writeAt data (i * chunkSize) ((chunk content i).take k)) content m := by
  intro j hj hj'
  rw [getElem?_writeAt (chunk_fits hl hi k)]
  split
  · rw [getElem?_chunk (by omega)]
    congr 1
    omega
  · exact h j hj hj'

theorem agrees_written (hl : data.length = content.length) (hi : i * chunkSize ≤ content.length) :
    Agrees (writeAt data (i * chunkSize) (chunk content i)) content i := by
  have hfull : chunk content i = (chunk content i).take chunkSize :=
    (take_of_length_le (by rw [length_chunk]; omega)).symm
  rw [hfull]
  intro j hj hj'
  rw [getElem?_writeAt (chunk_fits hl hi chunkSize)]
  split
  · rw [getElem?_chunk (by omega)]
    congr 1
    omega
  rename_i hout
  rw [length_take, length_chunk] at hout
  rw [Nat.add_mul, Nat.one_mul] at hj'
  rw [getElem?_eq_none (by omega), getElem?_eq_none (by omega)]

theorem eq_of_agrees {n : Nat} (hl : data.length = content.length) (hn : content.length ≤ n * chunkSize)
    (h : ∀ i < n, Agrees data content i) : data = content := by
  apply ext_getElem?
  intro j
  by_cases hj : j < content.length
  · have hi : j / chunkSize < n := Nat.div_lt_of_lt_mul (by rw [Nat.mul_comm]; omega)
    refine h _ hi j (Nat.div_mul_le_self j chunkSize) ?_
    rw [Nat.mul_comm]
    exact Nat.lt_mul_div_succ j (by decide)
  · rw [getElem?_eq_none (by omega), getElem?_eq_none (by omega)]

end Write

theorem mem_of_nodup_length {xs : List Nat} {n : Nat} (hd : xs.Nodup) (hb : ∀ x ∈ xs, x < n) (hl : n ≤ xs.length) {i : Nat}
    (hi : i < n) : i ∈ xs := by
  have hsub : xs.Subperm (range n) := subperm_of_subset hd (fun x hx => mem_range.mpr (hb x hx))
  have hperm : xs.Perm (range n) := hsub.perm_of_length_le (by rwa [length_range])
  exact hperm.mem_iff.mpr (mem_range.mpr hi)

theorem chunk_offset_le {size : UInt64} {chunkIndex : UInt32} (h : chunkIndex < chunkCountFor size) :
    chunkIndex.toNat * chunkSize ≤ size.toNat := by
  have hlt : chunkIndex.toNat < (chunkCountFor size).toNat := h
  unfold chunkCountFor at hlt
  split at hlt
  · simp at hlt
  rw [UInt32.toNat_ofNat'] at hlt
  have hle := Nat.mod_le ((size.toNat + (chunkSize - 1)) / chunkSize) (2 ^ 32)
  have hq : chunkIndex.toNat + 1 ≤ (size.toNat + (chunkSize - 1)) / chunkSize := by omega
  have hm := (Nat.le_div_iff_mul_le (by decide : 0 < chunkSize)).mp hq
  rw [Nat.add_mul] at hm
  omega

end Bore.TransferChunks
