import BinderRpc.Survival

/-!
Which execute requests are answered. exec_args replies only at its end, so a request
whose key is not registered here, or whose arguments do not unmarshal, leaves the
client waiting.
-/

namespace BinderRpc.Answering

open Outcome Octets Text Signature Marshal Socket Database Client Server Frames Execution Survival

end BinderRpc.Answering
