import ApiRegisterGen.GoStrings
import ApiRegisterGen.Records
import ApiRegisterGen.Tags
import ApiRegisterGen.Subresources
import ApiRegisterGen.Packages
import ApiRegisterGen.Index
import ApiRegisterGen.DoType
import ApiRegisterGen.Worklist
import ApiRegisterGen.Closure
import ApiRegisterGen.Apis
import ApiRegisterGen.Builder
import ApiRegisterGen.Diagnostics
import ApiRegisterGen.Build
