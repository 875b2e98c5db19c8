import SocialGraph.Record.Dataset

/-!
# The bundled dataset

The dataset a service starts with when it is given none: two member tiers, three users, two
profiles, three posts and three subscriptions. It is kept as the JSON text it is published in,
and read by the same rules as any other dataset.
-/

namespace SocialGraph.Dataset

/-- The JSON text of the bundled dataset. -/
def seedText : String :=
  "\x7b\"memberTypes\":[\x7b\"id\":\"basic\",\"discount\":2.3," ++
  "\"postsLimitPerMonth\":20\x7d,\x7b\"id\":\"business\",\"discount\":7.7," ++
  "\"postsLimitPerMonth\":100\x7d]," ++
  "\"users\":[\x7b\"id\":\"3f1b6c2e-8d4a-4b7e-9a61-2c5d8e0f1a01\"," ++
  "\"name\":\"Ada Lovelace\",\"balance\":120.5\x7d," ++
  "\x7b\"id\":\"3f1b6c2e-8d4a-4b7e-9a61-2c5d8e0f1a02\",\"name\":\"Grace Hopper\"," ++
  "\"balance\":88.0\x7d,\x7b\"id\":\"3f1b6c2e-8d4a-4b7e-9a61-2c5d8e0f1a03\"," ++
  "\"name\":\"Alan Turing\",\"balance\":0.0\x7d]," ++
  "\"profiles\":[\x7b\"id\":\"7c9e2d41-5b3a-4f8e-8c12-6a0b4d9e2f01\"," ++
  "\"isMale\":false,\"yearOfBirth\":1815," ++
  "\"userId\":\"3f1b6c2e-8d4a-4b7e-9a61-2c5d8e0f1a01\"," ++
  "\"memberTypeId\":\"business\"\x7d," ++
  "\x7b\"id\":\"7c9e2d41-5b3a-4f8e-8c12-6a0b4d9e2f02\",\"isMale\":false," ++
  "\"yearOfBirth\":1906,\"userId\":\"3f1b6c2e-8d4a-4b7e-9a61-2c5d8e0f1a02\"," ++
  "\"memberTypeId\":\"basic\"\x7d]," ++
  "\"posts\":[\x7b\"id\":\"a4d2f7b0-1e6c-4c3d-b8a9-5f2e7d1c9b01\"," ++
  "\"title\":\"Notes on the Analytical Engine\"," ++
  "\"content\":\"The engine weaves algebraic patterns.\"," ++
  "\"authorId\":\"3f1b6c2e-8d4a-4b7e-9a61-2c5d8e0f1a01\"\x7d," ++
  "\x7b\"id\":\"a4d2f7b0-1e6c-4c3d-b8a9-5f2e7d1c9b02\"," ++
  "\"title\":\"Compilers for everyone\"," ++
  "\"content\":\"Programs should read like English.\"," ++
  "\"authorId\":\"3f1b6c2e-8d4a-4b7e-9a61-2c5d8e0f1a02\"\x7d," ++
  "\x7b\"id\":\"a4d2f7b0-1e6c-4c3d-b8a9-5f2e7d1c9b03\",\"title\":\"Debugging," ++
  " literally\",\"content\":\"A moth was found in relay 70.\"," ++
  "\"authorId\":\"3f1b6c2e-8d4a-4b7e-9a61-2c5d8e0f1a02\"\x7d]," ++
  "\"subscriptions\":[\x7b\"subscriberId\":\"3f1b6c2e-8d4a-4b7e-9a61-2c5d8e0f1a01\"," ++
  "\"authorId\":\"3f1b6c2e-8d4a-4b7e-9a61-2c5d8e0f1a02\"\x7d," ++
  "\x7b\"subscriberId\":\"3f1b6c2e-8d4a-4b7e-9a61-2c5d8e0f1a02\"," ++
  "\"authorId\":\"3f1b6c2e-8d4a-4b7e-9a61-2c5d8e0f1a01\"\x7d," ++
  "\x7b\"subscriberId\":\"3f1b6c2e-8d4a-4b7e-9a61-2c5d8e0f1a03\"," ++
  "\"authorId\":\"3f1b6c2e-8d4a-4b7e-9a61-2c5d8e0f1a01\"\x7d]\x7d"

/-- The bundled dataset. -/
def seed : Except Json.Error Dataset := ofText seedText

end SocialGraph.Dataset
