import TransformChain.Proofs.Chain.ViewStatements
import TransformChain.Proofs.Chain.Views
import TransformChain.Proofs.Table.Names

/-!
# Names of outputs

The output of a chain and the views of its steps go into one namespace under the names of the chain
and of the steps.  The names of steps are identifiers, so what they give is read back.  A chain
without steps goes by the label of its base dataset: the full name of a table, which has dots of its
own, or any text that a query was given.
-/

namespace TransformChain

def Session.WellNamed (session : Session) : Prop :=
  ∀ ns, session.config.defaultNamespace = some ns → ∃ text, Namespace.parse text = .ok ns

namespace Chain

theorem Reachable.isNamePart_of_mem {chain : Chain} (h : Reachable chain) {name : String}
    (hname : name ∈ chain.stepNames) : IsNamePart name :=
  .of_isIdentifier (h.wellNamed.identifiers name hname)

theorem Reachable.isNamePart_name_iff {chain : Chain} (h : Reachable chain) :
    IsNamePart chain.name ↔ 0 < chain.depth ∨
      ∃ label sql columns, chain = .root (.query label sql columns) ∧ IsNamePart label := by
  cases chain with
  | step parent name s =>
      have hmem : name ∈ (step parent name s).stepNames :=
        List.mem_append_right _ List.mem_cons_self
      exact iff_of_true (h.isNamePart_of_mem hmem) (Or.inl (Nat.succ_pos _))
  | root dataset =>
      cases dataset with
      | query label sql columns =>
          constructor
          · exact fun hlabel => Or.inr ⟨label, sql, columns, rfl, hlabel⟩
          · rintro (hdepth | ⟨_, _, _, hroot, hlabel⟩)
            · exact absurd hdepth (Nat.lt_irrefl 0)
            · cases hroot
              exact hlabel
      | table base columns =>
          have hdot : '.' ∈ (Chain.root (.table base columns)).name.toList := by
            simp [name, Dataset.label, TableName.display]
          constructor
          · exact fun hpart => absurd hdot hpart.dotless
          · rintro (hdepth | ⟨_, _, _, hroot, -⟩)
            · exact absurd hdepth (Nat.lt_irrefl 0)
            · cases hroot

end Chain

namespace Session

section OutputNames

variable {session : Session} {chain : Chain} {ns : Namespace} {name : TableName}

theorem isProper_outputNamespace (hsession : session.WellNamed) (hsource : chain.source.WellNamed)
    (h : session.outputNamespace chain = .ok ns) : ns.IsProper := by
  unfold outputNamespace at h
  cases hdefault : session.config.defaultNamespace with
  | some given =>
      rw [hdefault] at h
      cases h
      rcases hsession ns hdefault with ⟨text, hread⟩
      exact (Namespace.parse_eq_ok_iff.mp hread).left
  | none =>
      rw [hdefault] at h
      cases hdataset : chain.source with
      | query label sql columns =>
          rw [hdataset] at h
          cases h
      | table base columns =>
          rw [hdataset] at h hsource
          cases h
          rcases hsource with ⟨text, hread⟩
          exact (TableName.parse_eq_ok_iff.mp hread).left.namespaceOf

theorem outputTable_eq_ok_iff :
    session.outputTable chain = .ok name ↔
      ∃ ns, session.outputNamespace chain = .ok ns ∧ name = ns.table chain.name := by
  unfold outputTable
  cases session.outputNamespace chain with
  | error e => simp
  | ok ns => simp [eq_comm]

theorem outputTable_readBack_iff (h : chain.Reachable) (hsession : session.WellNamed)
    (hsource : chain.source.WellNamed) (hname : session.outputTable chain = .ok name) :
    TableName.parse name.display = .ok name ↔ 0 < chain.depth ∨
      ∃ label sql columns, chain = .root (.query label sql columns) ∧ IsNamePart label := by
  rcases outputTable_eq_ok_iff.mp hname with ⟨ns, hns, rfl⟩
  rw [TableName.parse_display_iff,
    TableName.isProper_table_iff (isProper_outputNamespace hsession hsource hns),
    h.isNamePart_name_iff]

theorem viewNames_readBack (h : chain.Reachable) (hns : ns.IsProper) {script : String}
    (hscript : chain.viewChain ns = .ok script) :
    ∃ views : List StepFragment,
      script = Text.join "\n\n" (views.map fun view =>
        "CREATE OR REPLACE VIEW " ++ (ns.table view.name).display ++ " AS\n" ++ view.sql ++ ";") ∧
      ∀ view ∈ views,
        TableName.parse (ns.table view.name).display = .ok (ns.table view.name) := by
  unfold Chain.viewChain at hscript
  cases hviews : chain.renderSteps (Chain.viewReference ns) with
  | error e =>
      rw [hviews] at hscript
      cases hscript
  | ok views =>
      rw [hviews, Except.ok.injEq] at hscript
      refine ⟨views, hscript.symm, fun view hview => ?_⟩
      have hmem : view.name ∈ chain.stepNames := by
        rw [← Chain.map_name_renderSteps hviews]
        exact List.mem_map_of_mem hview
      rw [TableName.parse_display_iff, TableName.isProper_table_iff hns]
      exact h.isNamePart_of_mem hmem

/-- Which of the names that a session gives to outputs are read back.  The name of a chain's
output, under which it is saved by default, is read back from what is written for it exactly if the
chain has steps, or is a query that was given a part of a name.  Each view of a chain is created
under a name that is read back, in whatever namespace the views are put. -/
theorem output_names_read_back_iff (h : chain.Reachable) (hsession : session.WellNamed)
    (hsource : chain.source.WellNamed) :
    (∀ name, session.outputTable chain = .ok name →
      (TableName.parse name.display = .ok name ↔ 0 < chain.depth ∨
        ∃ label sql columns, chain = .root (.query label sql columns) ∧ IsNamePart label)) ∧
    (∀ kind before after name, session.save chain none kind before = (.ok name, after) →
      session.outputTable chain = .ok name) ∧
    ∀ ns, session.outputNamespace chain = .ok ns ∨ (∃ text, Namespace.parse text = .ok ns) →
      ∀ script, chain.viewChain ns = .ok script →
        ∃ views : List StepFragment,
          script = Text.join "\n\n" (views.map fun view =>
            "CREATE OR REPLACE VIEW " ++ (ns.table view.name).display ++ " AS\n" ++
              view.sql ++ ";") ∧
          ∀ view ∈ views,
            TableName.parse (ns.table view.name).display = .ok (ns.table view.name) := by
  refine ⟨fun name => outputTable_readBack_iff h hsession hsource, ?_, ?_⟩
  · intro kind before after name hsave
    rcases Chain.save_default hsave with ⟨ns, hns, hname⟩
    exact outputTable_eq_ok_iff.mpr ⟨ns, hns, hname⟩
  · rintro ns (hns | ⟨text, hread⟩) script
    · exact viewNames_readBack h (isProper_outputNamespace hsession hsource hns)
    · exact viewNames_readBack h (Namespace.parse_eq_ok_iff.mp hread).left

end OutputNames

/-!
## A table and its copies
-/

def viewsSession : Session :=
  ⟨{ Config.default with defaultNamespace := some ⟨"DB", "VIEWS"⟩ }, ⟨[Chain.copying]⟩⟩

theorem wellNamed_viewsSession : viewsSession.WellNamed := by
  intro ns hdefault
  cases hdefault
  exact ⟨"DB.VIEWS", by decide +kernel⟩

theorem copied_numbers_read_back :
    TableName.parse "DB.VIEWS.STEP_2_COPY" = .ok ⟨"DB", "VIEWS", "STEP_2_COPY"⟩ := by
  have h : (Chain.tableCopiedTwice "NUMBERS").Reachable :=
    Chain.reachable_tableCopiedTwice (by rfl) (by rfl)
  have hsource : (Chain.numberTable "NUMBERS").WellNamed := ⟨"A.B.NUMBERS", by decide +kernel⟩
  have houtput : viewsSession.outputTable (Chain.tableCopiedTwice "NUMBERS") =
      .ok ⟨"DB", "VIEWS", "STEP_2_COPY"⟩ := by rfl
  have hread := output_names_read_back_iff h wellNamed_viewsSession hsource
  exact (hread.left _ houtput).mpr (Or.inl (Nat.succ_pos _))

def orders : Chain :=
  .root (.table ⟨"DB", "PUBLIC", "ORDERS"⟩ (some [⟨"ID", none⟩]))

/-- A table that nothing is applied to is put under its full name, which is not a part of a name. -/
theorem orders_output_has_five_parts :
    orders.Reachable ∧ viewsSession.WellNamed ∧ orders.source.WellNamed ∧
      viewsSession.outputTable orders = .ok ⟨"DB", "VIEWS", "DB.PUBLIC.ORDERS"⟩ ∧
      (viewsSession.save orders none .table default).1 =
        .ok ⟨"DB", "VIEWS", "DB.PUBLIC.ORDERS"⟩ ∧
      TableName.display ⟨"DB", "VIEWS", "DB.PUBLIC.ORDERS"⟩ = "DB.VIEWS.DB.PUBLIC.ORDERS" ∧
      ¬∃ name, TableName.parse "DB.VIEWS.DB.PUBLIC.ORDERS" = .ok name := by
  have hsource : orders.source.WellNamed := ⟨"DB.PUBLIC.ORDERS", by decide +kernel⟩
  refine ⟨.root _, wellNamed_viewsSession, hsource, by rfl, by rfl, by rfl, ?_⟩
  rintro ⟨name, hread⟩
  have hcount := TableName.count_of_parse hread
  exact absurd hcount (by decide +kernel)

end Session
end TransformChain
