import NetHop.Framing

/-!
# Named fields as bytes

A list of named texts written one after another, every name and every text behind its
length in four bytes.  As long as the lengths fit into four bytes the list can be read
off the bytes again, whatever the names are.
-/

namespace NetHop.Framing

open List

/-- `str::as_bytes`. -/
def textBytes (t : String) : List UInt8 := t.toByteArray.data.toList

variable (f : String × String)

def field : List UInt8 := frame (textBytes f.1) ++ frame (textBytes f.2)

variable (fields : List (String × String))

def encodeFields : List UInt8 := fields.flatMap field

def Fits : Prop := f.1.utf8ByteSize < 2 ^ 32 ∧ f.2.utf8ByteSize < 2 ^ 32

@[simp] theorem length_textBytes (t : String) : (textBytes t).length = t.utf8ByteSize := by
  exact String.size_toByteArray

theorem textBytes_inj {t t' : String} (h : textBytes t = textBytes t') : t = t' := by
  have hdata : t.toByteArray.data = t'.toByteArray.data := Array.toList_inj.mp h
  exact String.toByteArray_inj.mp (ByteArray.ext hdata)

theorem textBytes_append (t t' : String) : textBytes (t ++ t') = textBytes t ++ textBytes t' := by
  rfl

variable {r s : List UInt8}

theorem toBeBytes_append_inj {n m : Nat} (hn : n < 2 ^ 32) (hm : m < 2 ^ 32)
    (h : toBeBytes 4 n ++ r = toBeBytes 4 m ++ s) : n = m ∧ r = s := by
  obtain ⟨hbytes, hrest⟩ := append_inj h (by simp)
  refine ⟨?_, hrest⟩
  calc n = fromBeBytes (toBeBytes 4 n) := (fromBeBytes_toBeBytes (by omega)).symm
    _ = fromBeBytes (toBeBytes 4 m) := by rw [hbytes]
    _ = m := fromBeBytes_toBeBytes (by omega)

theorem frame_append_inj {p q r s : List UInt8} (hp : p.length < 2 ^ 32) (hq : q.length < 2 ^ 32)
    (h : frame p ++ r = frame q ++ s) : p = q ∧ r = s := by
  simp only [frame, append_assoc] at h
  obtain ⟨hlength, hrest⟩ := toBeBytes_append_inj hp hq h
  exact append_inj hrest hlength

theorem frame_append_cancel {p q r : List UInt8} (h : frame p ++ r = frame q ++ r) : p = q := by
  have hframe : frame p = frame q := append_cancel_right h
  rw [← drop_frame p, hframe, drop_frame]

theorem field_append_inj {f g : String × String} (hf : Fits f) (hg : Fits g)
    (h : field f ++ r = field g ++ s) : f = g ∧ r = s := by
  simp only [field, append_assoc] at h
  obtain ⟨hname, hrest⟩ := frame_append_inj (by simpa using hf.1) (by simpa using hg.1) h
  obtain ⟨htext, hrest⟩ := frame_append_inj (by simpa using hf.2) (by simpa using hg.2) hrest
  exact ⟨Prod.ext (textBytes_inj hname) (textBytes_inj htext), hrest⟩

theorem field_ne_nil : field f ≠ [] := by
  intro h
  have hlength := congrArg length h
  rw [field, length_append, length_frame, length_nil] at hlength
  omega

@[simp] theorem encodeFields_nil : encodeFields [] = [] := rfl

@[simp] theorem encodeFields_cons :
    encodeFields (f :: fields) = field f ++ encodeFields fields := rfl

@[simp] theorem encodeFields_append (fields' : List (String × String)) :
    encodeFields (fields ++ fields') = encodeFields fields ++ encodeFields fields' := flatMap_append

/-! ## Lists of codes -/

section

variable {α : Type} {code : α → List UInt8} {P : α → Prop} {l l' : List α}

def Delimited (code : α → List UInt8) (P : α → Prop) : Prop :=
  ∀ ⦃a b : α⦄ ⦃r s : List UInt8⦄, P a → P b → code a ++ r = code b ++ s → a = b ∧ r = s

def Counts (P : α → Prop) (l : List α) : Prop := l.length < 2 ^ 32 ∧ ∀ a ∈ l, P a

def counted (code : α → List UInt8) (l : List α) : List UInt8 :=
  toBeBytes 4 l.length ++ l.flatMap code

variable (hcode : Delimited code P)

include hcode

variable {r r' : List UInt8}

theorem Delimited.flatMap_append_inj (hlength : l.length = l'.length)
    (h : ∀ a ∈ l, P a) (h' : ∀ a ∈ l', P a) (heq : l.flatMap code ++ r = l'.flatMap code ++ r') :
    l = l' ∧ r = r' := by
  induction l generalizing l' with
  | nil =>
    cases length_eq_zero_iff.mp hlength.symm
    exact ⟨rfl, heq⟩
  | cons a l ih =>
    cases l' with
    | nil => cases hlength
    | cons b l' =>
      obtain ⟨ha, hl⟩ := forall_mem_cons.mp h
      obtain ⟨hb, hl'⟩ := forall_mem_cons.mp h'
      simp only [flatMap_cons, append_assoc] at heq
      obtain ⟨rfl, htail⟩ := hcode ha hb heq
      obtain ⟨rfl, hrest⟩ := ih (Nat.succ.inj hlength) hl hl' htail
      exact ⟨rfl, hrest⟩

theorem Delimited.counted_append_inj (h : Counts P l) (h' : Counts P l')
    (heq : counted code l ++ r = counted code l' ++ r') : l = l' ∧ r = r' := by
  simp only [counted, append_assoc] at heq
  obtain ⟨hlength, hrest⟩ := toBeBytes_append_inj h.1 h'.1 heq
  exact hcode.flatMap_append_inj hlength h.2 h'.2 hrest

theorem Delimited.flatMap_inj (hne : ∀ a, code a ≠ []) (h : ∀ a ∈ l, P a) (h' : ∀ a ∈ l', P a)
    (heq : l.flatMap code = l'.flatMap code) : l = l' := by
  induction l generalizing l' with
  | nil =>
    cases l' with
    | nil => rfl
    | cons b l' => exact absurd (append_eq_nil_iff.mp heq.symm).1 (hne b)
  | cons a l ih =>
    cases l' with
    | nil => exact absurd (append_eq_nil_iff.mp heq).1 (hne a)
    | cons b l' =>
      obtain ⟨ha, hl⟩ := forall_mem_cons.mp h
      obtain ⟨hb, hl'⟩ := forall_mem_cons.mp h'
      obtain ⟨hhead, htail⟩ := hcode ha hb heq
      rw [hhead, ih hl hl' htail]

end

theorem encodeFields_inj {fields fields' : List (String × String)} (h : ∀ f ∈ fields, Fits f)
    (h' : ∀ f ∈ fields', Fits f) (heq : encodeFields fields = encodeFields fields') :
    fields = fields' := by
  have hfield : Delimited field Fits := fun _ _ _ _ hf hg h => field_append_inj hf hg h
  exact hfield.flatMap_inj field_ne_nil h h' heq

/-! ## Lists of fields -/

theorem repeated_append_inj {name : String} {vs vs' : List String}
    {r r' : List (String × String)} (hr : ∀ f ∈ r.head?, f.1 ≠ name)
    (hr' : ∀ f ∈ r'.head?, f.1 ≠ name)
    (h : vs.map (name, ·) ++ r = vs'.map (name, ·) ++ r') : vs = vs' ∧ r = r' := by
  induction vs generalizing vs' with
  | nil =>
    cases vs' with
    | nil => exact ⟨rfl, h⟩
    | cons v' vs' =>
      have hhead : r = (name, v') :: (vs'.map (name, ·) ++ r') := h
      exact absurd rfl (hr (name, v') (by rw [hhead]; rfl))
  | cons v vs ih =>
    cases vs' with
    | nil =>
      have hhead : (name, v) :: (vs.map (name, ·) ++ r) = r' := h
      exact absurd rfl (hr' (name, v) (by rw [← hhead]; rfl))
    | cons v' vs' =>
      obtain ⟨hv, htail⟩ := cons.inj h
      obtain ⟨hvs, hrest⟩ := ih htail
      have hvalue : v = v' := (Prod.ext_iff.mp hv).2
      exact ⟨by rw [hvalue, hvs], hrest⟩

end NetHop.Framing
