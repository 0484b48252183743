import ReactivePage.Proofs.DictLaws
import ReactivePage.Proofs.Json.Reading
import ReactivePage.Proofs.Replay.Escaping
import ReactivePage.Replay.Cache

namespace ReactivePage

def Record.Fits (r : Record) : Prop :=
  ∀ response, r.response = some response → response.status < 65536

def Snapshot.Fits (s : Snapshot) : Prop := ∀ e ∈ s.toList, ∀ r ∈ e.2, r.Fits

namespace Json

namespace Source

theorem namedMembers?_map (members : List (String × Source)) :
    namedMembers? (members.map fun m => (m.1.toList.map itemOf, m.2)) = some members := by
  induction members with
  | nil => rfl
  | cons m members ih =>
    rw [List.map_cons, namedMembers?, decodeString?_map_itemOf, ih]
    simp

def Carries {α : Type} (read : Source → Option α) (j : Json) (a : α) : Prop :=
  ∃ tree, Readable j.chars tree ∧ read tree = some a

variable {α : Type} {read : Source → Option α}

theorem carries_string (s : String) : Carries text? (Json.string s) s :=
  ⟨_, readable_string s, by simp [text?, decodeString?_map_itemOf]⟩

theorem carries_status {n : Nat} (h : n < 65536) : Carries status? (ofNat n) n := by
  have hbound : 65535 ≤ maxInteger := by decide
  have hmax : n ≤ maxInteger := Nat.le_trans (Nat.le_of_lt_succ h) hbound
  have hint : (0 : Int) ≤ n ∧ (n : Int) < 65536 := by omega
  refine ⟨_, readable_ofNat n, ?_⟩
  rw [status?, Numeral.number?_natural hmax]
  exact (if_pos hint).trans (by rw [Int.toNat_natCast])

theorem Carries.nullable {j : Json} {a : α} (h : Carries read j a) (hnull : read null = none) :
    Carries (nullable read) j (some a) := by
  obtain ⟨tree, hreadable, hread⟩ := h
  refine ⟨tree, hreadable, ?_⟩
  cases tree with
  | null => rw [hnull] at hread; cases hread
  | _ => simp [Source.nullable, hread]

theorem carries_null (read : Source → Option α) : Carries (nullable read) Json.null none :=
  ⟨null, readable_null, rfl⟩

theorem carries_list (encode : α → Json) {items : List α}
    (h : ∀ a ∈ items, Carries read (encode a) a) :
    Carries (list? read) (Json.array (items.map encode)) items := by
  have : ∃ trees, List.Forall₂ (fun j tree => Readable (chars j) tree) (items.map encode) trees ∧
      trees.mapM read = some items := by
    induction items with
    | nil => exact ⟨[], .nil, rfl⟩
    | cons a items ih =>
      obtain ⟨tree, hreadable, hread⟩ := h a List.mem_cons_self
      obtain ⟨trees, hall, hmap⟩ := ih fun b hb => h b (List.mem_cons_of_mem _ hb)
      exact ⟨tree :: trees, .cons hreadable hall, by simp [hread, hmap]⟩
  obtain ⟨trees, hall, hmap⟩ := this
  exact ⟨_, readable_array hall, hmap⟩

theorem carries_dict (encode : α → Json) {d : Dict String α}
    (h : ∀ e ∈ d.toList, Carries read (encode e.2) e.2) :
    Carries (dict? read) (Json.object (d.toList.map fun e => (e.1, encode e.2))) d := by
  have (entries : List (String × α)) (h : ∀ e ∈ entries, Carries read (encode e.2) e.2) :
      ∃ trees : List (String × Source),
        List.Forall₂ ReadableMember (entries.map fun e => (e.1, encode e.2)) trees ∧
          (trees.mapM fun m => (m.1, ·) <$> read m.2) = some entries := by
    induction entries with
    | nil => exact ⟨[], .nil, rfl⟩
    | cons e entries ih =>
      obtain ⟨tree, hreadable, hread⟩ := h e List.mem_cons_self
      obtain ⟨trees, hall, hmap⟩ := ih fun f hf => h f (List.mem_cons_of_mem _ hf)
      exact ⟨(e.1, tree) :: trees, .cons ⟨rfl, hreadable⟩ hall, by
        rw [List.mapM_cons, hread, hmap]
        rfl⟩
  obtain ⟨trees, hall, hmap⟩ := this d.toList h
  refine ⟨_, readable_object hall, ?_⟩
  rw [named, dict?, namedMembers?_map]
  simp only [Option.bind_eq_bind, Option.bind_some, hmap]
  rw [Dict.ofList_toList]
  rfl

theorem carries_headers (h : Headers) : Carries headers? (ofHeaders h) h :=
  carries_dict (fun values : List String => Json.array (values.map Json.string)) fun _ _ =>
    carries_list Json.string fun s _ => carries_string s

theorem fields?_named (names : List String) (members : List (String × Source)) :
    fields? names (named members)
      = if names.all fun name => (members.filter fun m => m.1 = name).length ≤ 1 then
          some (names.map fun name => (members.find? fun m => m.1 = name).map Prod.snd)
        else none := by
  rw [named, fields?, namedMembers?_map]
  rfl

theorem carries_response {r : Response} (h : r.status < 65536) :
    Carries response? (ofResponse r) r := by
  obtain ⟨status, hstatus, hreadStatus⟩ := carries_status h
  obtain ⟨headers, hheaders, hreadHeaders⟩ := carries_headers r.headers
  obtain ⟨body, hbody, hreadBody⟩ := carries_string r.body
  refine ⟨named [("status", status), ("headers", headers), ("body", body)],
    readable_object (.cons ⟨rfl, hstatus⟩ (.cons ⟨rfl, hheaders⟩ (.cons ⟨rfl, hbody⟩ .nil))), ?_⟩
  rw [response?, fields?_named]
  simp [required, optional, hreadStatus, hreadHeaders, hreadBody]

theorem carries_option (encode : α → Json) (hnull : read null = none) {a : Option α}
    (h : ∀ b, a = some b → Carries read (encode b) b) :
    Carries (Source.nullable read) ((a.map encode).getD Json.null) a := by
  cases a with
  | none => exact carries_null read
  | some b => exact (h b rfl).nullable hnull

theorem carries_record {r : Record} (h : r.Fits) : Carries record? (ofRecord r) r := by
  obtain ⟨response, hresponse, hreadResponse⟩ :=
    carries_option ofResponse rfl fun b hb => carries_response (h b hb)
  obtain ⟨error, herror, hreadError⟩ :=
    carries_option Json.string rfl fun b (_ : r.error = some b) => carries_string b
  refine ⟨named [("response", response), ("error", error)],
    readable_object (.cons ⟨rfl, hresponse⟩ (.cons ⟨rfl, herror⟩ .nil)), ?_⟩
  rw [record?, fields?_named]
  simp [optional, hreadResponse, hreadError]

theorem carries_snapshot {s : Snapshot} (h : s.Fits) : Carries snapshot? (ofSnapshot s) s :=
  carries_dict (fun records : List Record => Json.array (records.map ofRecord)) fun e he =>
    carries_list ofRecord fun r hr => carries_record (h e he r hr)

end Source

end Json

theorem Snapshot.parse?_render {s : Snapshot} (h : s.Fits) : Snapshot.parse? s.render = some s := by
  obtain ⟨tree, hreadable, hread⟩ := Json.Source.carries_snapshot h
  rw [parse?, render, Json.Source.read?_render hreadable]
  exact hread

theorem Snapshot.parse?_escapeClosing {text : String} {s : Snapshot}
    (h : Snapshot.parse? text = some s) :
    Snapshot.parse? (String.ofList (ScriptBlock.escapeClosing text.toList)) = some s := by
  obtain ⟨tree, htree, hread⟩ := Option.bind_eq_some_iff.1 h
  rw [parse?, Json.Source.read?_escapeClosing htree]
  exact hread

namespace Cache

theorem exists_toList_render (s : Snapshot) : ∃ rest, s.render.toList = '{' :: rest := by
  rw [Snapshot.render, Json.render, String.toList_ofList, Json.ofSnapshot, Json.chars]
  exact ⟨_, rfl⟩

theorem isBlank_of_brace {rest : List Char} :
    Text.isBlank (String.ofList ('{' :: rest)) = false := by
  have hbrace : Text.isWhite '{' = false := by decide
  rw [Text.isBlank, String.toList_ofList, List.all_cons, hbrace, Bool.false_and]

theorem ofText_render {s : Snapshot} (h : s.Fits) : ofText s.render = .ok (ofSnapshot s) := by
  obtain ⟨rest, hrest⟩ := exists_toList_render s
  have hblank : Text.isBlank s.render = false := by
    rw [← String.ofList_toList (s := s.render), hrest]
    exact isBlank_of_brace
  rw [ofText, hblank, Snapshot.parse?_render h]
  rfl

theorem ofText_embedded {s : Snapshot} (h : s.Fits) :
    ofText (String.ofList (ScriptBlock.escapeClosing s.render.toList)) = .ok (ofSnapshot s) := by
  obtain ⟨rest, hrest⟩ := exists_toList_render s
  have hblank :
      Text.isBlank (String.ofList (ScriptBlock.escapeClosing s.render.toList)) = false := by
    rw [hrest, ScriptBlock.escapeClosing_cons_of_ne (by decide)]
    exact isBlank_of_brace
  rw [ofText, hblank, Snapshot.parse?_escapeClosing (Snapshot.parse?_render h)]
  rfl

theorem ofPage_render {scriptType before : String} {s : Snapshot} (behind : String)
    (hfits : s.Fits) (hmatch : ScriptBlock.isMatchable scriptType = true)
    (hquote : '"' ∉ scriptType.toList) (hbefore : ScriptBlock.Unopened before.toList) :
    ofPage scriptType (before ++ ScriptBlock.render scriptType s.render ++ behind)
      = .ok (ofSnapshot s) := by
  rw [ofPage, ScriptBlock.find?_render s.render behind hmatch hquote hbefore, ofFound,
    ofText_embedded hfits]

end Cache

end ReactivePage
