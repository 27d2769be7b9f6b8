import GatewayPlan.Proofs.Except
import GatewayPlan.Proofs.Keyed
import GatewayPlan.Proofs.Tree.Written

/-!
# Faithful codecs

A codec is faithful to a value if the value is read back from every tree that stands for the one
it is written as, wherever the tree comes from.
-/

namespace GatewayPlan.Tree.Codec

variable {α β : Type} {keys : String → Prop} {depth : Nat}

structure Faithful (c : Codec α) (keys : String → Prop) (depth : Nat) (x : α) : Prop where
  written : (c.encode x).Written keys depth
  reads : ∀ src m, m.StandsFor (c.encode x) → c.decode src m = .ok x

theorem Faithful.decode_encode {c : Codec α} {x : α} (h : c.Faithful keys depth x) (src : Source) :
    c.decode src (c.encode x) = .ok x :=
  h.reads src _ (.refl _)

theorem stringExpecting_faithful (expected s : String) :
    (stringExpecting expected).Faithful keys depth s where
  written := .text s
  reads _ m h := by
    rcases Node.standsFor_text_iff.mp h with rfl | ⟨rfl, -⟩ <;> rfl

theorem string_faithful (s : String) : string.Faithful keys depth s :=
  stringExpecting_faithful "a string" s

theorem bool_faithful (b : Bool) : bool.Faithful keys depth b where
  written := .bool b
  reads _ m h := by simp only [bool, Node.scalar_of_standsFor h rfl]

theorem uint32_faithful (n : UInt32) : uint32.Faithful keys depth n where
  written := .natural (Nat.lt_trans n.toNat_lt_size (by decide))
  reads _ m h := by simp [uint32, Node.scalar_of_standsFor h rfl, n.toNat_lt_size]

theorem list_faithful {c : Codec α} {xs : List α} (h : ∀ x ∈ xs, c.Faithful keys depth x) :
    c.list.Faithful keys (depth + 1) xs where
  written := by
    refine .seq fun n mem => ?_
    obtain ⟨x, hx, rfl⟩ := List.mem_map.mp mem
    exact (h x hx).written
  reads src m stands := by
    obtain ⟨ms, rfl, items⟩ := Node.standsFor_seq_iff.mp stands
    have each : List.Forall₂ (fun m x => c.decode src m = .ok x) ms xs := by
      rw [List.forall₂_map_right_iff] at items
      have known := (List.forall₂_and_left xs ms).mpr ⟨h, items.flip⟩
      exact (known.imp fun x m own => own.1.reads src m own.2).flip
    exact Except.mapM_eq_ok_iff.mpr each

theorem keyOf_of_standsFor {k : Node} {name : String} (h : k.StandsFor (.text name)) :
    keyOf k = .ok name := by
  rcases Node.standsFor_text_iff.mp h with rfl | ⟨rfl, -⟩ <;> rfl

theorem keyed_faithful {c : Codec α} {x : Keyed α}
    (h : ∀ e ∈ x.entries, c.Faithful Node.anyKey depth e.2) :
    c.keyed.Faithful Node.anyKey (depth + 1) x where
  written := by
    have fields : c.keyed.encode x = .fields (x.entries.map fun e => (e.1, c.encode e.2)) := by
      rw [Node.fields, List.map_map]
      rfl
    rw [fields]
    refine .fields (fun _ _ => trivial) (fun w mem => ?_) ?_
    · obtain ⟨e, he, rfl⟩ := List.mem_map.mp mem
      exact (h e he).written
    · rw [List.map_map]
      exact x.nodup_keys
  reads src m stands := by
    obtain ⟨es, ws, rfl, perm, entries⟩ := Node.standsFor_map_map_iff.mp stands
    have known := (List.forall₂_and_left ws es).mpr
      ⟨fun w mem => h w (perm.mem_iff.mp mem), entries.flip⟩
    have each : List.Forall₂ (fun (e : Node × Node) (w : String × α) => (do
        let key ← keyOf e.1
        let x ← c.decode src e.2
        pure (key, x)) = .ok w) es ws := by
      refine (known.imp fun w e own => ?_).flip
      obtain ⟨faithful, key, value⟩ := own
      change (do
        let key ← keyOf e.1
        let x ← c.decode src e.2
        pure (key, x)) = Except.ok w
      rw [keyOf_of_standsFor key, faithful.reads src _ value]
      rfl
    have reordered : Keyed.ofList ws = x := by
      apply Keyed.eq_of_entries_perm
      have distinct : (ws.map Prod.fst).Nodup :=
        (perm.map Prod.fst).nodup_iff.mpr x.nodup_keys
      exact (Keyed.ofList_perm distinct).trans perm
    exact Except.bind_eq_ok_iff.mpr
      ⟨ws, Except.mapM_eq_ok_iff.mpr each, congrArg Except.ok reordered⟩

/-- An optional value is told from none as long as no value is written as null. -/
theorem option_some_faithful {c : Codec α} {x : α} (h : c.Faithful keys depth x)
    (present : c.encode x ≠ .null) : c.option.Faithful keys depth (some x) where
  written := h.written
  reads src m stands := by
    have stands : m.StandsFor (c.encode x) := stands
    obtain ⟨notNull, notEmpty, notTagged⟩ := stands.present h.written.settled? present
    have read : (c.decode src m).map some = .ok (some x) := by
      rw [h.reads src m stands]
      rfl
    cases m with
    | null => exact absurd rfl notNull
    | plain s => simpa [option, notEmpty s rfl] using read
    | tagged tag content => exact absurd rfl (notTagged tag content)
    | _ => exact read

theorem refine_faithful {c : Codec β} {write : α → β} {read : β → Except String α} {x : α}
    (h : c.Faithful keys depth (write x)) (accepted : read (write x) = .ok x) :
    (c.refine write read).Faithful keys depth x where
  written := h.written
  reads src m stands := by
    simp only [refine, h.reads src m stands]
    rw [Except.bind_eq_ok_iff]
    exact ⟨write x, rfl, by rw [accepted]; rfl⟩

theorem choice_faithful {table : List (String × α)} {name : α → String} {x : α}
    (known : table.lookup (name x) = some x) : (choice table name).Faithful keys depth x where
  written := .text (name x)
  reads src m stands := by
    rcases Node.standsFor_text_iff.mp stands with rfl | ⟨rfl, -⟩ <;>
      simp only [choice, pickUntagged, pick, known]

end GatewayPlan.Tree.Codec
