import Steward.Proofs.Document.Restores
import Steward.Spec.Aggregator
import Steward.Spec.Manager

/-!
# Specifications are read back as they were written

Two kinds of parts are not written as they stand: the type of an application has to be in lower
case, and the settings of an import list have to be finite numbers.  Whatever is read is so, and
every specification that is, is read back.
-/

namespace Steward.Spec

open Block

variable [Validator] [Validator.Lawful]

/-! ## 1. Common parts -/

instance : KeyRef.codec.Restores fun _ => True := by
  unfold KeyRef.codec KeyRef.block
  exact Restores.codec inferInstance (of_decide_eq_true rfl) (by simp) (by simp) _

instance : CredentialsRef.codec.Restores fun _ => True := by
  unfold CredentialsRef.codec CredentialsRef.block
  exact Restores.codec inferInstance (of_decide_eq_true rfl) (by simp) (by simp) _

instance : Connection.codec.Restores fun _ => True := by
  unfold Connection.codec Connection.block
  exact Restores.codec inferInstance (of_decide_eq_true rfl) (by simp) (by simp) _

instance : Tuning.codec.Restores fun _ => True := by
  unfold Tuning.codec Tuning.block
  exact Restores.codec inferInstance (of_decide_eq_true rfl) (by simp) (by simp) _

instance : DownloadClient.codec.Restores fun _ => True := by
  unfold DownloadClient.codec DownloadClient.block
  exact Restores.codec inferInstance (of_decide_eq_true rfl) (by simp) (by simp) _

/-! ## 2. Acquisition managers -/

instance : AggregatorRef.codec.Restores fun _ => True := by
  unfold AggregatorRef.codec AggregatorRef.block
  exact Restores.codec inferInstance (of_decide_eq_true rfl) (by simp) (by simp) _

instance : DirectIndexer.codec.Restores fun _ => True := by
  unfold DirectIndexer.codec DirectIndexer.block
  exact Restores.codec inferInstance (of_decide_eq_true rfl) (by simp) (by simp) _

instance : Indexers.codec.Restores fun _ => True := by
  unfold Indexers.codec Indexers.block
  exact Restores.codec inferInstance (of_decide_eq_true rfl) (by simp) (by simp) _

instance : Authentication.codec.Restores fun _ => True := by
  unfold Authentication.codec Authentication.block
  exact Restores.codec inferInstance (of_decide_eq_true rfl) (by simp) (by simp) _

instance : MediaManagement.codec.Restores fun _ => True := by
  unfold MediaManagement.codec MediaManagement.block
  exact Restores.codec inferInstance (of_decide_eq_true rfl) (by simp) (by simp) _

instance : PathMapping.codec.Restores fun _ => True := by
  unfold PathMapping.codec PathMapping.block
  exact Restores.codec inferInstance (of_decide_eq_true rfl) (by simp) (by simp) _

/-- All numbers in the settings are finite. -/
def ImportList.Finite (l : ImportList) : Prop := Json.finiteMembers l.settings = true

instance : ImportList.codec.Restores ImportList.Finite := by
  unfold ImportList.codec ImportList.block
  refine Restores.codec inferInstance (of_decide_eq_true rfl) (by simp [ImportList.Finite]) ?_ _
  rintro _ - _ - _ - _ - _ - _ - _ - settings (hsettings | rfl) _ -
  · exact hsettings
  · rfl

/-- All numbers in the settings of all lists are finite. -/
def Manager.Finite (m : Manager) : Prop := ∀ l ∈ m.importLists, l.Finite

instance : Manager.codec.Restores Manager.Finite := by
  unfold Manager.codec Manager.block
  refine Restores.codec inferInstance (of_decide_eq_true rfl) (by simp [Manager.Finite]) ?_ _
  rintro _ - _ - _ - _ - _ - _ - lists (hlists | rfl) _ - _ - _ -
  · exact hlists
  · exact fun _ hl => nomatch hl

/-! ## 3. Aggregators -/

instance : AggregatorIndexer.codec.Restores fun _ => True := by
  unfold AggregatorIndexer.codec AggregatorIndexer.block
  exact Restores.codec inferInstance (of_decide_eq_true rfl) (by simp) (by simp) _

instance : Proxy.codec.Restores fun _ => True := by
  unfold Proxy.codec Proxy.block
  exact Restores.codec inferInstance (of_decide_eq_true rfl) (by simp) (by simp) _

/-- The type is in lower case. -/
def Application.Lowered (a : Application) : Prop := Text.lower a.type = a.type

instance : Application.codec.Restores Application.Lowered := by
  unfold Application.codec Application.block
  exact Restores.codec inferInstance (of_decide_eq_true rfl) (by simp [Application.Lowered])
    (by simp +contextual [Application.Lowered]) _

/-- The types of all applications are in lower case. -/
def Aggregator.Lowered (g : Aggregator) : Prop := ∀ a ∈ g.applications, a.Lowered

instance : Aggregator.codec.Restores Aggregator.Lowered := by
  unfold Aggregator.codec Aggregator.block
  refine Restores.codec inferInstance (of_decide_eq_true rfl) (by simp [Aggregator.Lowered]) ?_ _
  rintro _ - _ - _ - applications (happlications | rfl) _ - _ -
  · exact happlications
  · exact fun _ ha => nomatch ha

end Steward.Spec
