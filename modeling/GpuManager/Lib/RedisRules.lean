import GpuManager.Lib.Redis

/-!
# Rules for scripts

Three things that are shown of a script by its parts, without running it.

* `Script.Within`: the script writes only some keys.
* `Script.Shrinks`: the script adds no entry to a stream.
* `Script.Keeps`: the script keeps a property of the server, above all a property that every
  stream has.
-/

namespace Redis

open Server List

/-! ## What a script can write -/

namespace Script

variable {α β : Type} {K : String → Prop} {m : Script α}

def Within (K : String → Prop) (m : Script α) : Prop :=
  ∀ s k, ¬ K k → (m.run s).2.keys k = s.keys k

theorem within_pure (a : α) : (pure a : Script α).Within K := fun _ _ _ => rfl

theorem within_fail (message : String) : (fail message : Script α).Within K := fun _ _ _ => rfl

theorem within_bind {f : α → Script β} (hm : m.Within K)
    (hf : ∀ a, (f a).Within K) : (m >>= f).Within K := by
  intro s k hk
  rw [run_bind]
  have hfirst := hm s k hk
  split
  next a s' heq =>
    rw [heq] at hfirst
    exact (hf a s' k hk).trans hfirst
  next e s' heq =>
    rw [heq] at hfirst
    exact hfirst

theorem within_discard (hm : m.Within K) : (discard m : Script Unit).Within K :=
  within_bind hm fun _ => within_pure ()

theorem within_pcall (hm : m.Within K) : (pcall m).Within K :=
  fun s k hk => hm s k hk

variable {m' : Script α}

variable {c : Prop}

theorem within_ite [Decidable c] (hm : m.Within K)
    (hm' : m'.Within K) : (if c then m else m').Within K := by
  split
  · exact hm
  · exact hm'

variable {cs : List (Script Unit)}

theorem within_multi (h : ∀ c ∈ cs, c.Within K) :
    (multi cs).Within K := by
  induction cs with
  | nil => exact within_pure ()
  | cons c cs ih =>
    have hhead := h c mem_cons_self
    have htail := ih fun c' hc' => h c' (mem_cons_of_mem _ hc')
    intro s k hk
    rw [multi_cons_server, htail _ k hk, hhead s k hk]

end Script

section Within

variable {α : Type} {K : String → Prop} {key : String} {absent : α}

theorem within_read {f : Server → Except String α} : Script.Within K ⟨fun s => (f s, s)⟩ :=
  fun _ _ _ => rfl

theorem within_type : (type key).Within K := within_read

theorem within_readStream {f : Stream → α} :
    (readStream key absent f).Within K := by
  intro s k _
  simp only [readStream]
  split <;> rfl

variable {field group k : String}

theorem within_hget : (hget key field).Within K := by
  intro s k _
  simp only [hget]
  split <;> rfl

theorem within_get : (get key).Within K := by
  intro s k _
  simp only [get]
  split <;> rfl

/-- A write of one key is a write of this key. -/
theorem put_within (s : Server) (v : Value) (h : K key) (hk : ¬ K k) :
    (s.put key v).keys k = s.keys k :=
  put_keys_of_ne s v fun heq => hk (heq ▸ h)

theorem setKey_within (s : Server) (v : Option Key) (h : K key) (hk : ¬ K k) :
    (s.setKey key v).keys k = s.keys k :=
  setKey_keys_of_ne s v fun heq => hk (heq ▸ h)

variable {f : Stream → α × Stream}

theorem within_changeStream (h : K key) :
    (changeStream key absent f).Within K := by
  intro s k hk
  simp only [changeStream]
  split
  · rfl
  · exact put_within s _ h hk
  · rfl

variable {fields : Fields}

theorem within_xadd (h : K key) : (xadd key fields).Within K := by
  intro s k hk
  simp only [xadd]
  split
  · exact put_within s _ h hk
  · exact put_within s _ h hk
  · rfl

theorem within_del (h : K key) : (del key).Within K := fun s _ hk => setKey_within s _ h hk

theorem within_hset (h : K key) : (hset key fields).Within K := by
  intro s k hk
  simp only [hset]
  split
  · exact put_within s _ h hk
  · exact put_within s _ h hk
  · rfl

variable {increment seconds : ℤ}

theorem within_hincrby (h : K key) :
    (hincrby key field increment).Within K := by
  intro s k hk
  simp only [hincrby]
  split
  · exact put_within s _ h hk
  · split
    · rfl
    · exact put_within s _ h hk
  · rfl

theorem within_expire (h : K key) : (expire key seconds).Within K := by
  intro s k hk
  simp only [expire]
  split
  · rfl
  · exact setKey_within s _ h hk

theorem within_persist (h : K key) : (persist key).Within K := by
  intro s k hk
  simp only [persist]
  split
  · rfl
  · exact setKey_within s _ h hk

theorem within_incr (h : K key) : (incr key).Within K := by
  intro s k hk
  simp only [incr]
  split
  · exact put_within s _ h hk
  · split
    · rfl
    · exact put_within s _ h hk
  · rfl
  · rfl

theorem within_execSet {watched : ℕ} {text : Text} (h : K key) :
    (execSet key watched text).Within K := by
  intro s k hk
  simp only [execSet]
  split
  · exact setKey_within s _ h hk
  · rfl

theorem within_xgroupCreate (h : K key) : (xgroupCreate key group).Within K := by
  intro s k hk
  simp only [xgroupCreate]
  split
  · exact put_within s _ h hk
  · exact put_within s _ h hk
  · rfl

theorem within_xreadgroup {consumer : String} {count : ℕ} (h : K key) :
    (xreadgroup group consumer count key).Within K := by
  intro s k hk
  simp only [xreadgroup]
  split
  · rfl
  · split
    · rfl
    · exact put_within s _ h hk
  · rfl

end Within

/-! ## Scripts that add nothing to a stream -/

namespace Script

variable {α β : Type} {key : String} {m : Script α} {id : StreamId}

/-- The script keeps the stream under a key and adds no entry to it. -/
def Shrinks (key : String) (m : Script α) : Prop :=
  ∀ s st, s.stream key = some st →
    ∃ st', (m.run s).2.stream key = some st' ∧ st'.entries.Sublist st.entries

theorem shrinks_of_within {K : String → Prop} (h : m.Within K) (hkey : ¬ K key) :
    m.Shrinks key := by
  intro s st hst
  refine ⟨st, ?_, Sublist.refl _⟩
  rw [stream_congr (h s key hkey)]
  exact hst

theorem shrinks_pure (a : α) : (pure a : Script α).Shrinks key :=
  fun _ st hst => ⟨st, hst, Sublist.refl _⟩

theorem shrinks_bind {f : α → Script β} (hm : m.Shrinks key)
    (hf : ∀ a, (f a).Shrinks key) : (m >>= f).Shrinks key := by
  intro s st hst
  obtain ⟨st₁, hst₁, hsub₁⟩ := hm s st hst
  rw [run_bind]
  split
  next a s' heq =>
    rw [heq] at hst₁
    obtain ⟨st₂, hst₂, hsub₂⟩ := hf a s' st₁ hst₁
    exact ⟨st₂, hst₂, hsub₂.trans hsub₁⟩
  next e s' heq =>
    rw [heq] at hst₁
    exact ⟨st₁, hst₁, hsub₁⟩

theorem shrinks_ite [Decidable c] (hm : m.Shrinks key)
    (hm' : m'.Shrinks key) : (if c then m else m').Shrinks key := by
  split
  · exact hm
  · exact hm'

theorem shrinks_multi (h : ∀ c ∈ cs, c.Shrinks key) :
    (multi cs).Shrinks key := by
  induction cs with
  | nil => exact shrinks_pure ()
  | cons c cs ih =>
    intro s st hst
    obtain ⟨st₁, hst₁, hsub₁⟩ := h c mem_cons_self s st hst
    obtain ⟨st₂, hst₂, hsub₂⟩ :=
      ih (fun c' hc' => h c' (mem_cons_of_mem _ hc')) _ st₁ hst₁
    refine ⟨st₂, ?_, hsub₂.trans hsub₁⟩
    rw [multi_cons_server]
    exact hst₂

theorem shrinks_changeStream {absent : α}
    (h : ∀ st, (f st).2.entries.Sublist st.entries) : (changeStream key absent f).Shrinks key := by
  intro s st hst
  obtain ⟨s', hrun, w⟩ := changeStream_wrote (f := f) hst
  refine ⟨(f st).2, ?_, h st⟩
  rw [hrun]
  exact w.stream

theorem shrinks_xack : (xack key group id).Shrinks key :=
  shrinks_changeStream fun _ => Sublist.refl _

theorem shrinks_xdel : (xdel key id).Shrinks key :=
  shrinks_changeStream fun _ => filter_sublist

theorem shrinks_xtrim {maxlen : ℕ} : (xtrim key maxlen).Shrinks key :=
  shrinks_changeStream fun _ => drop_sublist _ _

end Script

/-! ## Properties that a script keeps -/

namespace Script

variable {α β : Type} {P : Server → Prop} {m : Script α}

def Keeps (P : Server → Prop) (m : Script α) : Prop := ∀ s, P s → P (m.run s).2

theorem keeps_pure (a : α) : (pure a : Script α).Keeps P := fun _ hs => hs

theorem keeps_fail (message : String) : (fail message : Script α).Keeps P := fun _ hs => hs

theorem keeps_bind {f : α → Script β} (hm : m.Keeps P) (hf : ∀ a, (f a).Keeps P) :
    (m >>= f).Keeps P := by
  intro s hs
  have hfirst := hm s hs
  rw [run_bind]
  split
  next a s' heq =>
    rw [heq] at hfirst
    exact hf a s' hfirst
  next e s' heq =>
    rw [heq] at hfirst
    exact hfirst

theorem keeps_discard (hm : m.Keeps P) : (discard m : Script Unit).Keeps P :=
  keeps_bind hm fun _ => keeps_pure ()

theorem keeps_pcall (hm : m.Keeps P) : (pcall m).Keeps P := fun s hs => hm s hs

theorem keeps_ite [Decidable c] (hm : m.Keeps P)
    (hm' : m'.Keeps P) : (if c then m else m').Keeps P := by
  split
  · exact hm
  · exact hm'

theorem keeps_multi (h : ∀ c ∈ cs, c.Keeps P) : (multi cs).Keeps P := by
  induction cs with
  | nil => exact keeps_pure ()
  | cons c cs ih =>
    intro s hs
    rw [multi_cons_server]
    have htail := ih fun c' hc' => h c' (mem_cons_of_mem _ hc')
    exact htail _ (h c mem_cons_self s hs)

/-- A script that writes nothing keeps everything. -/
theorem keeps_of_read (h : ∀ s, (m.run s).2 = s) : m.Keeps P := by
  intro s hs
  rw [h s]
  exact hs

end Script

section Reads

variable {α : Type} {P : Server → Prop} {key : String}

theorem keeps_readStream {absent : α} {f : Stream → α} : (readStream key absent f).Keeps P := by
  refine Script.keeps_of_read fun s => ?_
  simp only [readStream]
  split <;> rfl

theorem keeps_hget : (hget key field).Keeps P := by
  refine Script.keeps_of_read fun s => ?_
  simp only [hget]
  split <;> rfl

theorem keeps_get : (get key).Keeps P := by
  refine Script.keeps_of_read fun s => ?_
  simp only [get]
  split <;> rfl

theorem keeps_type : (type key).Keeps P := Script.keeps_of_read fun _ => rfl

end Reads

/-! ## Properties of every stream -/

def Server.EveryStream (Q : Stream → Prop) (s : Server) : Prop :=
  ∀ key st, s.stream key = some st → Q st

section EveryStream

variable {α : Type} {Q : Stream → Prop} {s : Server} {key : String}

theorem Server.EveryStream.setKey (hs : s.EveryStream Q) {k : Option Key}
    (hk : ∀ st ttl, k = some ⟨.stream st, ttl⟩ → Q st) : (s.setKey key k).EveryStream Q := by
  intro key' st hst
  by_cases heq : key' = key
  · obtain ⟨ttl, hkey⟩ := stream_eq_some.mp hst
    rw [heq, setKey_keys_self] at hkey
    exact hk st ttl hkey
  · rw [stream_congr (setKey_keys_of_ne s k heq)] at hst
    exact hs key' st hst

theorem Server.EveryStream.put (hs : s.EveryStream Q) {v : Value}
    (hv : ∀ st, v = .stream st → Q st) : (s.put key v).EveryStream Q := by
  refine hs.setKey fun st ttl heq => hv st ?_
  obtain ⟨rfl, -⟩ := Key.mk.inj (Option.some.inj heq)
  rfl

theorem keeps_changeStream {absent : α} (h : ∀ st, Q st → Q (f st).2) :
    (changeStream key absent f).Keeps (EveryStream Q) := by
  intro s hs
  simp only [changeStream]
  split
  · exact hs
  next st ttl hkey =>
    refine hs.put fun st' heq => ?_
    obtain rfl := Value.stream.inj heq
    exact h st (hs key st (stream_eq_some.mpr ⟨ttl, hkey⟩))
  · exact hs

theorem keeps_xadd (hempty : Q Stream.empty) (h : ∀ st clock, Q st → Q (st.add clock fields)) :
    (xadd key fields).Keeps (EveryStream Q) := by
  intro s hs
  simp only [xadd]
  split
  · refine hs.put fun st' heq => ?_
    obtain rfl := Value.stream.inj heq
    exact h _ _ hempty
  next st ttl hkey =>
    refine hs.put fun st' heq => ?_
    obtain rfl := Value.stream.inj heq
    exact h st _ (hs key st (stream_eq_some.mpr ⟨ttl, hkey⟩))
  · exact hs

theorem keeps_xgroupCreate (hempty : Q Stream.empty) (h : ∀ st, Q st → Q (st.createGroup group)) :
    (xgroupCreate key group).Keeps (EveryStream Q) := by
  intro s hs
  simp only [xgroupCreate]
  split
  · refine hs.put fun st' heq => ?_
    obtain rfl := Value.stream.inj heq
    exact h _ hempty
  next st ttl hkey =>
    refine hs.put fun st' heq => ?_
    obtain rfl := Value.stream.inj heq
    exact h st (hs key st (stream_eq_some.mpr ⟨ttl, hkey⟩))
  · exact hs

theorem keeps_del : (del key).Keeps (EveryStream Q) :=
  fun _ hs => hs.setKey fun _ _ heq => (by cases heq)

theorem keeps_hset : (hset key fields).Keeps (EveryStream Q) := by
  intro s hs
  simp only [hset]
  split
  · exact hs.put fun _ heq => (by cases heq)
  · exact hs.put fun _ heq => (by cases heq)
  · exact hs

theorem keeps_hincrby :
    (hincrby key field increment).Keeps (EveryStream Q) := by
  intro s hs
  simp only [hincrby]
  split
  · exact hs.put fun _ heq => (by cases heq)
  · split
    · exact hs
    · exact hs.put fun _ heq => (by cases heq)
  · exact hs

theorem keeps_expire : (expire key seconds).Keeps (EveryStream Q) := by
  intro s hs
  simp only [expire]
  split
  · exact hs
  next k hkey =>
    refine hs.setKey fun st ttl heq => ?_
    split at heq
    · cases heq
    obtain ⟨hvalue, -⟩ := Key.mk.inj (Option.some.inj heq)
    refine hs key st (stream_eq_some.mpr ⟨k.ttl, ?_⟩)
    rw [hkey, ← hvalue]

theorem keeps_persist : (persist key).Keeps (EveryStream Q) := by
  intro s hs
  simp only [persist]
  split
  · exact hs
  next k hkey =>
    refine hs.setKey fun st ttl heq => ?_
    obtain ⟨hvalue, -⟩ := Key.mk.inj (Option.some.inj heq)
    refine hs key st (stream_eq_some.mpr ⟨k.ttl, ?_⟩)
    rw [hkey, ← hvalue]

end EveryStream

end Redis
