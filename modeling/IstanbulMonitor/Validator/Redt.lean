import IstanbulMonitor.Validator.Registry

/-!
# The operators of the RedT network

The registry that is used when no other is configured.
-/

set_option autoImplicit false

namespace IstanbulMonitor.Registry

/-- The operators of the RedT network and their nodes. -/
def redtEntries : List RegistryEntry :=
  [⟨"AST",
    "enode://367354e3bb59d015fce31967f5dda5c17cb3b9acc5b571695f94a13f89d2a2c6" ++
    "4c3bca28da05b6751a7384c38152752de35787d97e9b8d6062b3371b7a9305c4" ++
    "@188.244.90.2:21000?discport=0"⟩,
   ⟨"Alisys",
    "enode://3905f943ba5446eba164c07ab5f53a84ce17d74ec4d7591f6ec54b9d7608f57c" ++
    "ae7cfdf946616385f59cfb5b910161a1f8520cb6f992bcc0d1ab932601205e91" ++
    "@154.62.228.6:21000?discport=0"⟩,
   ⟨"Blocknitive",
    "enode://6ee5504399ba5a6cbca15d7dd19c652017af0223f12af875044d103307cca82a" ++
    "8105cfb72455836bd52ba11cdbf5a752007af6000d59d146dade7f3738a4d148" ++
    "@185.170.96.121:21000?discport=0"⟩,
   ⟨"COUNCILBOX",
    "enode://a7e28844702e519f504802a0b45638049db8bf08e18d12e0713c9e5c5707bfab" ++
    "b029583a87e94f8985f9584bee9257a7efe5e057ea61e6b5a16f1eb0b9b3623a" ++
    "@52.232.74.132:21000?discport=0"⟩,
   ⟨"DigitelTS",
    "enode://32ed5766ac0c482bd7f950087c389710e31b75bf6a06628820f224ddd2fce216" ++
    "b26b113836a456832bbb62a9521d768923dcb8c1c6cbddd06071fa27e1688a1c" ++
    "@176.34.235.103:21000?discport=0"⟩,
   ⟨"IN2",
    "enode://0ede782b7ce6c7398f100ef33aef6c266972dac19910b5aac1c1eededccd7b47" ++
    "69e7df69e4314927417bbdd9592fc9f583c36274976af29e432b8e64059adc03" ++
    "@15.236.56.133:21000?discport=0"⟩,
   ⟨"Izertis",
    "enode://51bff825ab4169bc94035fb733a2613018e012460d683a032a20a2a8d305b5eb" ++
    "9462ad7f84ea0e7ce8eec1e0ba0647d5212912016917033c20939719397247a5" ++
    "@3.248.201.125:21000?discport=0"⟩,
   ⟨"SERES",
    "enode://b9992efd63318b9f41028ec3390abb21bb8fe8f99b0acc30bfccf6d033828b65" ++
    "f65971c1e4975bf41ea9910c879ec9d5df52f24b6bec9058c2cbdb70774b732a" ++
    "@141.144.251.87:21000?discport=0"⟩,
   ⟨"Indra",
    "enode://7adf7393d3d75978b3d9bf2f78436bb070e1c19eff20eb2eef07dc8293293c4e" ++
    "cbbbcca5a2f84ee6ca9331e8efe7d7d5662ed1f92bb96a6bd0e850715b45ed6d" ++
    "@20.107.215.166:21000?discport=0"⟩]

/-- The registry of the RedT network. -/
def redt : Except RegistryError Registry := ofEntries redtEntries

end IstanbulMonitor.Registry
